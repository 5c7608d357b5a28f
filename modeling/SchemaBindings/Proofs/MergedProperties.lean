import SchemaBindings.Proofs.Properties

/-!
# Names of merged properties

Qualifying a schema changes no name. Merging two objects keeps one property of a name, and merges
what is inside of both, so that the properties of a merged schema have distinct names if those of
the schemas have from which it is merged. The same goes for the object that gathers the parameters
of a reducer.
-/

namespace SchemaBindings

/-! ## Qualifying and merging -/

section Merging

variable {path : String} {left right merged : Kind}

theorem Kind.holds_of_qualify {uri : String} {kind : Kind} {copy : Node}
    (h : (kind.qualify uri).Holds copy) : ∃ node, kind.Holds node ∧ copy = node.qualify uri := by
  rw [holds_iff, isUnion_qualify, inner_qualify] at h
  obtain ⟨hunion, hcopy⟩ := h
  obtain ⟨node, hnode, rfl⟩ := List.mem_map.1 hcopy
  exact ⟨node, holds_iff.2 ⟨hunion, hnode⟩, rfl⟩

theorem Kind.Distinct.qualify {kind : Kind} (h : kind.Distinct) (uri : String) :
    (kind.qualify uri).Distinct := by
  induction h with
  | @intro kind hnames _ ih =>
    refine .intro (fun schema heq ↦ ?_) fun copy hcopy ↦ ?_
    · cases kind with
      | object original =>
        obtain ⟨copied, hcopied, hmembers, -⟩ := Kind.qualify_object uri original
        rw [hcopied] at heq
        cases heq
        rw [hmembers]
        simpa [Table.keys, Function.comp_def] using hnames original rfl
      | array items => cases items <;> cases heq
      | _ => cases heq
    · obtain ⟨node, hnode, rfl⟩ := Kind.holds_of_qualify hcopy
      rw [Node.kind_qualify]
      exact ih node hnode

theorem Kind.Distinct.merge (hleft : left.Distinct) (hright : right.Distinct)
    (h : Kind.merge path left right = .ok merged) : merged.Distinct := by
  refine Kind.merge_induction
    (P := fun left right merged ↦ left.Distinct → right.Distinct → merged.Distinct)
    (fun _ hleft _ ↦ hleft) ?scalars ?single ?object h hleft hright
  case scalars =>
    intro path left right merged hscalars hleft hright
    obtain rfl | rfl | ⟨_, _, _, _, rfl⟩ := mergeScalars_eq_ok hscalars
    · exact hleft
    · exact hright
    · exact distinct_of_plain nofun nofun
  case single =>
    intro first second item ih hleft hright
    refine .intro nofun fun node hnode ↦ ?_
    cases hnode with
    | item hmem =>
      cases List.mem_singleton.1 hmem
      exact ih (hleft.inside (.item (.head _))) (hright.inside (.item (.head _)))
  case object =>
    intro path first second schema hschema ih hleft hright
    refine .intro (fun _ heq ↦ ?_) fun node hnode ↦ ?_
    · cases heq
      rw [ObjectSchema.keys_of_merge hschema]
      exact nodup_addAllNew hleft.nodup _
    · exact ObjectSchema.merge_induction (fun node ↦ node.kind.Distinct)
        (fun node hnode ↦ hleft.inside (holds_iff.2 ⟨rfl, hnode⟩))
        (fun node hnode ↦ hright.inside (holds_iff.2 ⟨rfl, hnode⟩))
        (fun node hnode path existing found hexisting hmerge ↦
          ih node hnode path existing found hmerge hexisting
            (hright.inside (holds_iff.2 ⟨rfl, hnode⟩)))
        hschema node hnode.mem_inner

theorem Kind.distinct_mergeKinds {kinds : List Kind} (hkinds : ∀ kind ∈ kinds, kind.Distinct)
    (h : mergeKinds path kinds = .ok merged) : merged.Distinct := by
  have hstart : Kind.unconstrained.Distinct := distinct_of_plain nofun nofun
  exact Failure.foldlM_induction hstart h fun kind hkind _ _ hsoFar hmerge ↦
    hsoFar.merge (hkinds kind hkind) hmerge

theorem Kind.Distinct.withoutRequired {kind : Kind} (h : kind.Distinct) :
    kind.withoutRequired.Distinct := by
  cases kind with
  | object schema =>
    obtain ⟨properties, required, additional, pattern⟩ := schema
    let schema : ObjectSchema := .mk properties required additional pattern
    refine .intro (fun schema heq ↦ ?_) fun node hnode ↦ ?_
    · cases heq
      exact h.nodup
    · cases hnode with
      | property hentry => exact h.inside (@Kind.Holds.property schema _ hentry)
      | additional hadditional => exact h.inside (@Kind.Holds.additional schema _ hadditional)
  | _ => exact h

/-- A composition merges into a schema with distinct names if all that it is flattened to has. -/
theorem Kind.distinct_mergeAllOf {library : Library} {budget : Nat} {document : Document}
    {outer merged : Node} {members : List Node} {path : String} {session session' : Session}
    (hmembers : ∀ member ∈ members, ∀ o, Occurrence.Reaches library ⟨document, member, false⟩ o →
      o.node.kind.Distinct)
    (h : mergeAllOf library budget document outer members path session =
      some (.ok merged, session')) : merged.kind.Distinct := by
  obtain ⟨kinds, kind, hkinds, hmerged, rfl⟩ := mergeAllOf_eq_ok.1 h
  refine (distinct_mergeKinds (fun kind hkind ↦ ?_) hmerged).withoutRequired
  obtain ⟨member, hmember, _, _, _, found, hcollect, hfound⟩ := Flatten.mem_of_members hkinds hkind
  obtain ⟨o, hreaches, rfl⟩ :=
    Flatten.exists_reaches_of_collect (o := ⟨document, member, false⟩) hcollect hfound
  have hwritten := hmembers member hmember o hreaches
  unfold Occurrence.copy
  split
  · rw [Node.kind_qualify]
    exact hwritten.qualify _
  · exact hwritten

end Merging

/-! ## Gathered parameters -/

/-- The parameters of a reducer are gathered by their names. -/
theorem Method.Distinct.reduced {method : Method} (h : method.Distinct) :
    method.reduced.Distinct where
  params param hparam := by
    cases List.mem_singleton.1 hparam
    refine .intro nofun fun item hitem ↦ ?_
    cases hitem with
    | item hmem =>
      cases List.mem_singleton.1 hmem
      have hentries : ∀ entry ∈ method.params.map fun p ↦ (p.name, p.schema),
          entry.2.kind.Distinct := by
        intro entry hentry
        obtain ⟨gathered, hgathered, rfl⟩ := List.mem_map.1 hentry
        exact h.params gathered hgathered
      refine .intro (fun schema heq ↦ ?_) fun node hnode ↦ ?_
      · cases heq
        exact Table.nodup_keys_ofList _
      · cases hnode with
        | property hentry => exact hentries _ (Table.mem_ofList hentry)
        | additional hadditional => cases hadditional
  result := h.result

end SchemaBindings
