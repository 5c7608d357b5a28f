import SchemaBindings.Proofs.Merging
import SchemaBindings.Schema.References

/-!
# What schemas mention

The references and the property names anywhere in a schema. Merging and qualifying make up
nothing: a merged schema mentions only what one of the two schemas does, and a qualified one the
same things with its references qualified.
-/

namespace SchemaBindings

/-- Something that stands in a schema as text and keeps its meaning when schemas are merged. -/
inductive Mention where
  | reference (target : String)
  | property (name : String)

def Mention.text : Mention → String
  | .reference target => target
  | .property name => name

mutual

def Node.mentions : Node → List Mention
  | .mk _ _ kind => kind.mentions
  termination_by structural x => x

def Kind.mentions : Kind → List Mention
  | .reference target => [.reference target]
  | .object schema => schema.mentions
  | .array items => items.mentions
  | .allOf members => listMentions members
  | .oneOf members => listMentions members
  | .anyOf members => listMentions members
  | .constant .. => []
  | .enumeration _ => []
  | .primitive .. => []
  | .unconstrained => []
  termination_by structural x => x

def ObjectSchema.mentions : ObjectSchema → List Mention
  | .mk properties _ additional _ =>
    (match properties with
      | some properties => propertyMentions properties
      | none => []) ++
    (match additional with
      | some additional => additional.mentions
      | none => [])
  termination_by structural x => x

def Items.mentions : Items → List Mention
  | .single item => item.mentions
  | .tuple items => listMentions items
  termination_by structural x => x

def listMentions : List Node → List Mention
  | [] => []
  | node :: rest => node.mentions ++ listMentions rest
  termination_by structural x => x

def propertyMentions : List (String × Node) → List Mention
  | [] => []
  | (name, node) :: rest => .property name :: (node.mentions ++ propertyMentions rest)
  termination_by structural x => x

end

theorem Node.mentions_eq (node : Node) : node.mentions = node.kind.mentions := by
  obtain ⟨title, description, kind⟩ := node
  rfl

variable {m : Mention}

theorem mem_listMentions {nodes : List Node} :
    m ∈ listMentions nodes ↔ ∃ node ∈ nodes, m ∈ node.mentions := by
  induction nodes with
  | nil => simp [listMentions]
  | cons node rest ih => simp [listMentions, ih]

theorem mem_propertyMentions {properties : List (String × Node)} :
    m ∈ propertyMentions properties ↔
      ∃ entry ∈ properties, m = .property entry.1 ∨ m ∈ entry.2.mentions := by
  induction properties with
  | nil => simp [propertyMentions]
  | cons entry rest ih =>
    obtain ⟨name, node⟩ := entry
    simp [propertyMentions, ih, or_assoc]

theorem ObjectSchema.mem_mentions {schema : ObjectSchema} :
    m ∈ schema.mentions ↔
      m ∈ propertyMentions schema.members ∨
        ∃ additional, schema.additional = some additional ∧ m ∈ additional.mentions := by
  obtain ⟨properties, required, additional, pattern⟩ := schema
  cases properties <;> cases additional <;>
    simp [ObjectSchema.mentions, ObjectSchema.members, ObjectSchema.properties,
      ObjectSchema.additional, propertyMentions]

/-- What a schema inside of a kind mentions is mentioned by the kind. -/
theorem Kind.mem_mentions_of_inner {kind : Kind} {node : Node} (h : node ∈ kind.inner)
    (hm : m ∈ node.mentions) : m ∈ kind.mentions := by
  cases kind with
  | object schema =>
    obtain ⟨entry, hentry, rfl⟩ | hadditional := ObjectSchema.mem_inner_iff.1 h
    · exact ObjectSchema.mem_mentions.2 (.inl (mem_propertyMentions.2 ⟨entry, hentry, .inr hm⟩))
    · exact ObjectSchema.mem_mentions.2 (.inr ⟨node, hadditional, hm⟩)
  | array items =>
    cases items with
    | single item =>
      cases List.mem_singleton.1 h
      exact hm
    | tuple items => exact mem_listMentions.2 ⟨node, h, hm⟩
  | allOf members => exact mem_listMentions.2 ⟨node, h, hm⟩
  | oneOf members => exact mem_listMentions.2 ⟨node, h, hm⟩
  | anyOf members => exact mem_listMentions.2 ⟨node, h, hm⟩
  | _ => cases h

theorem Items.mem_mentions_of_element {items : Items} {path : String} {item : Node}
    (h : items.element path = .ok item) (hm : m ∈ item.mentions) : m ∈ items.mentions :=
  show m ∈ (Kind.array items).mentions from
    Kind.mem_mentions_of_inner (Items.mem_nodes_of_element h) hm

/-- An object mentions the names of its properties and what the schemas inside of it mention. -/
theorem Kind.mem_mentions_object {schema : ObjectSchema} :
    m ∈ (Kind.object schema).mentions ↔
      (∃ name ∈ Table.keys schema.members, m = .property name) ∨
        ∃ node ∈ (Kind.object schema).inner, m ∈ node.mentions := by
  constructor
  · intro h
    obtain hmember | ⟨node, hadditional, hm⟩ := ObjectSchema.mem_mentions.1 h
    · obtain ⟨entry, hentry, hname | hm⟩ := mem_propertyMentions.1 hmember
      · exact .inl ⟨entry.1, List.mem_map_of_mem hentry, hname⟩
      · exact .inr ⟨entry.2, ObjectSchema.property_mem_inner hentry, hm⟩
    · exact .inr ⟨node, ObjectSchema.additional_mem_inner hadditional, hm⟩
  · rintro (⟨name, hname, rfl⟩ | ⟨node, hnode, hm⟩)
    · obtain ⟨entry, hentry, rfl⟩ := List.mem_map.1 hname
      exact ObjectSchema.mem_mentions.2 (.inl (mem_propertyMentions.2 ⟨entry, hentry, .inl rfl⟩))
    · exact mem_mentions_of_inner hnode hm

/-! ## References -/

def Mention.target? : Mention → Option String
  | .reference target => some target
  | .property _ => none

theorem mem_filterMap_target? {target : String} {mentions : List Mention} :
    target ∈ mentions.filterMap Mention.target? ↔ .reference target ∈ mentions := by
  rw [List.mem_filterMap]
  constructor
  · rintro ⟨m, hm, htarget⟩
    cases m <;> cases htarget
    exact hm
  · exact fun h ↦ ⟨_, h, rfl⟩

mutual

/-- The references of a schema are listed in the order in which they are mentioned. -/
theorem Node.references_eq :
    (node : Node) → node.references = node.mentions.filterMap Mention.target?
  | .mk _ _ kind => by
    rw [Node.references, Node.mentions]
    exact Kind.references_eq kind

theorem Kind.references_eq :
    (kind : Kind) → kind.references = kind.mentions.filterMap Mention.target?
  | .reference _ => rfl
  | .object (.mk none _ none _) => rfl
  | .object (.mk none _ (some additional) _) => by
    simp [Kind.references, Kind.mentions, ObjectSchema.mentions, Node.references_eq additional]
  | .object (.mk (some properties) _ none _) => by
    simp [Kind.references, Kind.mentions, ObjectSchema.mentions,
      propertyReferences_eq properties]
  | .object (.mk (some properties) _ (some additional) _) => by
    simp [Kind.references, Kind.mentions, ObjectSchema.mentions,
      propertyReferences_eq properties, Node.references_eq additional]
  | .array (.single item) => by
    rw [Kind.references, Kind.mentions, Items.mentions]
    exact Node.references_eq item
  | .array (.tuple items) => by
    rw [Kind.references, Kind.mentions, Items.mentions]
    exact listReferences_eq items
  | .allOf members => by
    rw [Kind.references, Kind.mentions]
    exact listReferences_eq members
  | .oneOf members => by
    rw [Kind.references, Kind.mentions]
    exact listReferences_eq members
  | .anyOf members => by
    rw [Kind.references, Kind.mentions]
    exact listReferences_eq members
  | .constant .. => rfl
  | .enumeration _ => rfl
  | .primitive .. => rfl
  | .unconstrained => rfl

theorem listReferences_eq :
    (nodes : List Node) → listReferences nodes = (listMentions nodes).filterMap Mention.target?
  | [] => rfl
  | node :: rest => by
    rw [listReferences, listMentions, List.filterMap_append, Node.references_eq node,
      listReferences_eq rest]

theorem propertyReferences_eq :
    (properties : List (String × Node)) →
      propertyReferences properties = (propertyMentions properties).filterMap Mention.target?
  | [] => rfl
  | (_, node) :: rest => by
    rw [propertyReferences, propertyMentions, List.filterMap_cons_none rfl, List.filterMap_append,
      Node.references_eq node, propertyReferences_eq rest]

end

theorem Node.mem_references {target : String} (node : Node) :
    target ∈ node.references ↔ .reference target ∈ node.mentions := by
  rw [Node.references_eq, mem_filterMap_target?]

theorem mem_propertyReferences {target : String} (properties : List (String × Node)) :
    target ∈ propertyReferences properties ↔ .reference target ∈ propertyMentions properties := by
  rw [propertyReferences_eq, mem_filterMap_target?]

theorem Node.mem_references_of_kind {node : Node} {target : String}
    (h : node.kind = .reference target) : target ∈ node.references := by
  rw [Node.mem_references, Node.mentions_eq, h]
  exact List.mem_singleton_self _

theorem Node.references_subset {node node' : Node}
    (h : ∀ {m}, m ∈ node'.mentions → m ∈ node.mentions) : node'.references ⊆ node.references :=
  fun _ hmem ↦ (Node.mem_references node).2 (h ((Node.mem_references node').1 hmem))

/-! ## Qualifying -/

theorem qualifyList_eq_map (uri : String) (nodes : List Node) :
    qualifyList uri nodes = nodes.map (Node.qualify uri) := by
  induction nodes with
  | nil => rfl
  | cons node rest ih => rw [qualifyList, List.map_cons, ih]

theorem qualifyProperties_eq_map (uri : String) (properties : List (String × Node)) :
    qualifyProperties uri properties =
      properties.map fun entry ↦ (entry.1, entry.2.qualify uri) := by
  induction properties with
  | nil => rfl
  | cons entry rest ih => exact congrArg (_ :: ·) ih

theorem Kind.qualify_object (uri : String) (schema : ObjectSchema) : ∃ copied,
    (Kind.object schema).qualify uri = .object copied ∧
      copied.members = schema.members.map (fun entry ↦ (entry.1, entry.2.qualify uri)) ∧
      copied.additional = schema.additional.map (Node.qualify uri) := by
  obtain ⟨properties, required, additional, pattern⟩ := schema
  cases properties with
  | none => cases additional <;> exact ⟨_, rfl, rfl, rfl⟩
  | some properties =>
    have hmembers := qualifyProperties_eq_map uri properties
    cases additional <;> exact ⟨_, rfl, hmembers, rfl⟩

theorem Kind.inner_qualify (uri : String) (kind : Kind) :
    (kind.qualify uri).inner = kind.inner.map (Node.qualify uri) := by
  cases kind with
  | object schema =>
    obtain ⟨copied, hcopied, hmembers, hadditional⟩ := Kind.qualify_object uri schema
    rw [hcopied]
    change copied.members.map (·.2) ++ copied.additional.toList =
      (schema.members.map (·.2) ++ schema.additional.toList).map (Node.qualify uri)
    rw [hmembers, hadditional]
    cases schema.additional <;> simp [Function.comp_def]
  | array items =>
    cases items with
    | single item => rfl
    | tuple items => exact qualifyList_eq_map uri items
  | allOf members => exact qualifyList_eq_map uri members
  | oneOf members => exact qualifyList_eq_map uri members
  | anyOf members => exact qualifyList_eq_map uri members
  | _ => rfl

theorem Kind.isUnion_qualify (uri : String) (kind : Kind) :
    (kind.qualify uri).isUnion = kind.isUnion := by
  cases kind with
  | object schema =>
    obtain ⟨properties, required, additional, pattern⟩ := schema
    cases properties <;> cases additional <;> rfl
  | array items => cases items <;> rfl
  | _ => rfl

def Mention.qualify (uri : String) : Mention → Mention
  | .reference target => .reference (qualifyReference uri target)
  | .property name => .property name

mutual

theorem Node.mentions_qualify (uri : String) :
    (node : Node) → (node.qualify uri).mentions = node.mentions.map (Mention.qualify uri)
  | .mk _ _ kind => by
    rw [Node.qualify, Node.mentions, Node.mentions]
    exact Kind.mentions_qualify uri kind

theorem Kind.mentions_qualify (uri : String) :
    (kind : Kind) → (kind.qualify uri).mentions = kind.mentions.map (Mention.qualify uri)
  | .reference _ => rfl
  | .object (.mk none _ none _) => rfl
  | .object (.mk none _ (some additional) _) => by
    simp [Kind.qualify, Kind.mentions, ObjectSchema.mentions,
      Node.mentions_qualify uri additional]
  | .object (.mk (some properties) _ none _) => by
    simp [Kind.qualify, Kind.mentions, ObjectSchema.mentions,
      propertyMentions_qualify uri properties]
  | .object (.mk (some properties) _ (some additional) _) => by
    simp [Kind.qualify, Kind.mentions, ObjectSchema.mentions,
      propertyMentions_qualify uri properties, Node.mentions_qualify uri additional]
  | .array (.single item) => by
    rw [Kind.qualify, Kind.mentions, Kind.mentions, Items.mentions, Items.mentions]
    exact Node.mentions_qualify uri item
  | .array (.tuple items) => by
    rw [Kind.qualify, Kind.mentions, Kind.mentions, Items.mentions, Items.mentions]
    exact listMentions_qualify uri items
  | .allOf members => by
    rw [Kind.qualify, Kind.mentions, Kind.mentions]
    exact listMentions_qualify uri members
  | .oneOf members => by
    rw [Kind.qualify, Kind.mentions, Kind.mentions]
    exact listMentions_qualify uri members
  | .anyOf members => by
    rw [Kind.qualify, Kind.mentions, Kind.mentions]
    exact listMentions_qualify uri members
  | .constant .. => rfl
  | .enumeration _ => rfl
  | .primitive .. => rfl
  | .unconstrained => rfl

theorem listMentions_qualify (uri : String) :
    (nodes : List Node) →
      listMentions (qualifyList uri nodes) = (listMentions nodes).map (Mention.qualify uri)
  | [] => rfl
  | node :: rest => by
    rw [qualifyList, listMentions, listMentions, List.map_append,
      Node.mentions_qualify uri node, listMentions_qualify uri rest]

theorem propertyMentions_qualify (uri : String) :
    (properties : List (String × Node)) →
      propertyMentions (qualifyProperties uri properties) =
        (propertyMentions properties).map (Mention.qualify uri)
  | [] => rfl
  | (name, node) :: rest => by
    rw [qualifyProperties, propertyMentions, propertyMentions, List.map_cons, List.map_append,
      Node.mentions_qualify uri node, propertyMentions_qualify uri rest]
    rfl

end

/-! ## Merging -/

theorem mem_propertyMentions_ofList {entries : List (String × Node)}
    (h : m ∈ propertyMentions (Table.ofList entries)) : m ∈ propertyMentions entries := by
  obtain ⟨entry, hentry, hm⟩ := mem_propertyMentions.1 h
  exact mem_propertyMentions.2 ⟨entry, Table.mem_ofList hentry, hm⟩

/-- What two kinds merge into mentions only what one of them mentions. -/
theorem Kind.mem_mentions_merge {path : String} {left right merged : Kind}
    (h : Kind.merge path left right = .ok merged) :
    m ∈ merged.mentions → m ∈ left.mentions ∨ m ∈ right.mentions := by
  refine Kind.merge_induction
    (P := fun left right merged ↦ m ∈ merged.mentions → m ∈ left.mentions ∨ m ∈ right.mentions)
    (fun _ hm ↦ .inl hm) ?scalars ?single ?object h
  case scalars =>
    intro path left right merged hscalars hm
    obtain rfl | rfl | ⟨first, second, rfl, rfl, rfl⟩ := mergeScalars_eq_ok hscalars
    · exact .inl hm
    · exact .inr hm
    · cases hm
  case single =>
    intro first second item ih hm
    obtain hfirst | hsecond := ih (Node.mentions_eq item ▸ hm)
    · exact .inl (Kind.mem_mentions_of_inner (.head _) (Node.mentions_eq first ▸ hfirst))
    · exact .inr (Kind.mem_mentions_of_inner (.head _) (Node.mentions_eq second ▸ hsecond))
  case object =>
    intro path first second schema hschema ih hm
    obtain ⟨name, hname, rfl⟩ | ⟨node, hnode, hm⟩ := Kind.mem_mentions_object.1 hm
    · rw [ObjectSchema.keys_of_merge hschema, mem_addAllNew] at hname
      exact hname.imp (fun hname ↦ Kind.mem_mentions_object.2 (.inl ⟨name, hname, rfl⟩))
        fun hname ↦ Kind.mem_mentions_object.2 (.inl ⟨name, hname, rfl⟩)
    · refine ObjectSchema.merge_induction
        (fun node ↦ m ∈ node.mentions →
          m ∈ (Kind.object first).mentions ∨ m ∈ (Kind.object second).mentions)
        (fun node hnode hm ↦ .inl (Kind.mem_mentions_of_inner hnode hm))
        (fun node hnode hm ↦ .inr (Kind.mem_mentions_of_inner hnode hm)) ?_ hschema node hnode hm
      intro node hnode path existing found hexisting hmerge hm
      obtain hold | hnew := ih node hnode path existing found hmerge (Node.mentions_eq found ▸ hm)
      · exact hexisting (Node.mentions_eq existing ▸ hold)
      · exact .inr (Kind.mem_mentions_of_inner hnode (Node.mentions_eq node ▸ hnew))

/-- A merge of kinds mentions only what one of the kinds mentions. -/
theorem mem_mentions_mergeKinds {path : String} {kinds : List Kind} {merged : Kind}
    (h : mergeKinds path kinds = .ok merged) (hm : m ∈ merged.mentions) :
    ∃ kind ∈ kinds, m ∈ kind.mentions := by
  refine Failure.foldlM_induction (P := fun soFar ↦ m ∈ soFar.mentions →
    ∃ kind ∈ kinds, m ∈ kind.mentions) (fun hstart ↦ absurd hstart List.not_mem_nil) h
    (fun kind hkind soFar next hsoFar hmerge hm ↦ ?_) hm
  obtain hold | hnew := Kind.mem_mentions_merge hmerge hm
  · exact hsoFar hold
  · exact ⟨kind, hkind, hnew⟩

@[simp]
theorem Kind.mentions_withoutRequired (kind : Kind) :
    kind.withoutRequired.mentions = kind.mentions := by
  cases kind with
  | object schema =>
    obtain ⟨properties, required, additional, pattern⟩ := schema
    rfl
  | _ => rfl

end SchemaBindings
