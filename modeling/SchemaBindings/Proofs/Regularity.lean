import SchemaBindings.Proofs.Equality
import SchemaBindings.Proofs.Loops
import SchemaBindings.Proofs.MergedProperties

/-!
# Regular schemas

What holds of a kind and of all schemas that it is made of is kept by merging, if it is kept where
two objects become one. So distinct names are kept throughout: schemas that references lead to in
documents with distinct names have them, their copies have them, and so has everything that they are
merged into.
-/

namespace SchemaBindings

variable {path : String} {left right merged : Kind}

/-! ## Copies -/

theorem Kind.HasNames.qualify {kind : Kind} (h : kind.HasNames) (uri : String) :
    (kind.qualify uri).HasNames := by
  cases kind with
  | object schema =>
    obtain ⟨copied, hcopied, hmembers, -⟩ := Kind.qualify_object uri schema
    rw [hcopied]
    change (Table.keys copied.members).Nodup
    rw [hmembers]
    have hkeys : Table.keys (schema.members.map fun entry ↦ (entry.1, entry.2.qualify uri)) =
        Table.keys schema.members := by
      simp [Table.keys, Function.comp_def]
    rw [hkeys]
    exact h
  | array items => cases items <;> trivial
  | constant => exact h
  | _ => trivial

theorem Kind.Regular.qualify {kind : Kind} (h : kind.Regular) (uri : String) :
    (kind.qualify uri).Regular := by
  induction h with
  | intro here _ ih =>
    refine .intro (here.qualify uri) fun copy hcopy ↦ ?_
    rw [inner_qualify] at hcopy
    obtain ⟨node, hnode, rfl⟩ := List.mem_map.1 hcopy
    rw [Node.kind_qualify]
    exact ih node hnode

/-! ## Merging -/

/-- What holds of all that two kinds are made of holds of all that they merge into. -/
theorem Kind.Throughout.merge {property : Kind → Prop}
    (hobject : ∀ {path first second schema}, property (.object first) →
      property (.object second) → ObjectSchema.merge path first second = .ok schema →
        property (.object schema))
    (hsingle : ∀ item, property (.array (.single item)))
    (henumeration : ∀ values, property (.enumeration values))
    (hleft : left.Throughout property) (hright : right.Throughout property)
    (h : Kind.merge path left right = .ok merged) : merged.Throughout property := by
  refine Kind.merge_induction
    (P := fun left right merged ↦ left.Throughout property → right.Throughout property →
      merged.Throughout property)
    (fun _ hleft _ ↦ hleft) ?scalars ?single ?object h hleft hright
  case scalars =>
    intro path left right merged hscalars hleft hright
    obtain rfl | rfl | ⟨_, _, _, _, rfl⟩ := mergeScalars_eq_ok hscalars
    · exact hleft
    · exact hright
    · exact .of_leaf (henumeration _) rfl
  case single =>
    intro first second item ih hleft hright
    refine .intro (hsingle item) fun node hnode ↦ ?_
    cases List.mem_singleton.1 hnode
    exact ih (hleft.inside (.head _)) (hright.inside (.head _))
  case object =>
    intro path first second schema hschema ih hleft hright
    refine .intro (hobject hleft.here hright.here hschema) ?_
    exact ObjectSchema.merge_induction (fun node ↦ node.kind.Throughout property)
      (fun node hnode ↦ hleft.inside hnode) (fun node hnode ↦ hright.inside hnode)
      (fun node hnode path existing found hexisting hmerge ↦
        ih node hnode path existing found hmerge hexisting (hright.inside hnode)) hschema

theorem Kind.Regular.merge (hleft : left.Regular) (hright : right.Regular)
    (h : Kind.merge path left right = .ok merged) : merged.Regular := by
  have hobject : ∀ {path first second schema}, (Kind.object first).HasNames →
      (Kind.object second).HasNames → ObjectSchema.merge path first second = .ok schema →
        (Kind.object schema).HasNames := by
    intro path first second schema hfirst _ hmerge
    change (Table.keys schema.members).Nodup
    rw [ObjectSchema.keys_of_merge hmerge]
    exact nodup_addAllNew hfirst _
  exact Kind.Throughout.merge hobject (fun _ ↦ trivial) (fun _ ↦ trivial) hleft hright h

/-! ## References -/

namespace Library

variable {library : Library} {document : Document}

/-- Entries have distinct names in every document that a reference of this document can lead to. -/
def IsRegular (library : Library) (document : Document) : Prop :=
  document.content.Distinct ∧ ∀ other ∈ library.documents, other.content.Distinct

theorem IsRegular.resolve (h : library.IsRegular document) {reference place : String}
    {target : Target} (htarget : library.resolve document reference place = .ok target) :
    library.IsRegular target.owner ∧ target.node.kind.Regular := by
  have howner : target.owner.content.Distinct := by
    obtain heq | hmem := Library.owner_of_resolve htarget
    · exact heq ▸ h.1
    · exact h.2 _ hmem
  obtain ⟨fragment, value, -, hvalue, hread, -⟩ := Library.resolve_eq_ok htarget
  exact ⟨⟨howner, h.2⟩,
    Node.regular_of_read hread (Document.distinct_of_fragment? howner hvalue)⟩

end Library

end SchemaBindings
