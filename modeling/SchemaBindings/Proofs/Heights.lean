import SchemaBindings.Proofs.Mentions

/-!
# Heights of schemas

How deep the parts of a schema are nested, where a reference is as deep as it is weighed. A part
is less high than the whole, and merging builds nothing higher than what is merged.
-/

namespace SchemaBindings

mutual

def Node.height (weigh : String → Nat) : Node → Nat
  | .mk _ _ kind => kind.height weigh
  termination_by structural x => x

def Kind.height (weigh : String → Nat) : Kind → Nat
  | .reference target => weigh target + 1
  | .object schema => schema.height weigh + 1
  | .array items => items.height weigh + 1
  | .allOf members => listHeight weigh members + 1
  | .oneOf members => listHeight weigh members + 1
  | .anyOf members => listHeight weigh members + 1
  | .constant .. => 0
  | .enumeration _ => 0
  | .primitive .. => 0
  | .unconstrained => 0
  termination_by structural x => x

def ObjectSchema.height (weigh : String → Nat) : ObjectSchema → Nat
  | .mk properties _ additional _ =>
    max
      (match properties with
        | some properties => propertyHeight weigh properties
        | none => 0)
      (match additional with
        | some additional => additional.height weigh
        | none => 0)
  termination_by structural x => x

def Items.height (weigh : String → Nat) : Items → Nat
  | .single item => item.height weigh
  | .tuple items => listHeight weigh items
  termination_by structural x => x

def listHeight (weigh : String → Nat) : List Node → Nat
  | [] => 0
  | node :: rest => max (node.height weigh) (listHeight weigh rest)
  termination_by structural x => x

def propertyHeight (weigh : String → Nat) : List (String × Node) → Nat
  | [] => 0
  | (_, node) :: rest => max (node.height weigh) (propertyHeight weigh rest)
  termination_by structural x => x

end

variable {weigh : String → Nat} {bound : Nat}

theorem Node.height_eq (weigh : String → Nat) (node : Node) :
    node.height weigh = node.kind.height weigh := by
  obtain ⟨title, description, kind⟩ := node
  rfl

theorem listHeight_le {nodes : List Node} :
    listHeight weigh nodes ≤ bound ↔ ∀ node ∈ nodes, node.height weigh ≤ bound := by
  induction nodes with
  | nil => simp [listHeight]
  | cons node rest ih => simp only [listHeight, Nat.max_le, List.forall_mem_cons, ih]

theorem propertyHeight_le {properties : List (String × Node)} :
    propertyHeight weigh properties ≤ bound ↔
      ∀ entry ∈ properties, entry.2.height weigh ≤ bound := by
  induction properties with
  | nil => simp [propertyHeight]
  | cons entry rest ih =>
    obtain ⟨name, node⟩ := entry
    simp only [propertyHeight, Nat.max_le, List.forall_mem_cons, ih]

theorem ObjectSchema.height_le {schema : ObjectSchema} :
    schema.height weigh ≤ bound ↔ (∀ entry ∈ schema.members, entry.2.height weigh ≤ bound) ∧
      ∀ additional, schema.additional = some additional → additional.height weigh ≤ bound := by
  obtain ⟨properties, required, additional, pattern⟩ := schema
  rw [ObjectSchema.height.eq_def]
  refine Nat.max_le.trans (and_congr ?_ ?_)
  · cases properties with
    | none => exact iff_of_true (Nat.zero_le bound) nofun
    | some properties => exact propertyHeight_le
  · cases additional with
    | none => exact iff_of_true (Nat.zero_le bound) nofun
    | some additional => simp [ObjectSchema.additional]

/-! ## Parts -/

theorem Kind.height_inner_lt {kind : Kind} {node : Node} (h : node ∈ kind.inner) :
    node.height weigh < kind.height weigh := by
  cases kind with
  | object schema =>
    obtain ⟨hmembers, hadditional⟩ := ObjectSchema.height_le.1 (Nat.le_refl (schema.height weigh))
    obtain ⟨entry, hentry, rfl⟩ | hvalue := ObjectSchema.mem_inner_iff.1 h
    · exact Nat.lt_succ_of_le (hmembers entry hentry)
    · exact Nat.lt_succ_of_le (hadditional node hvalue)
  | array items =>
    cases items with
    | single item =>
      cases List.mem_singleton.1 h
      exact Nat.lt_succ_self _
    | tuple items => exact Nat.lt_succ_of_le (listHeight_le.1 (Nat.le_refl _) node h)
  | allOf members => exact Nat.lt_succ_of_le (listHeight_le.1 (Nat.le_refl _) node h)
  | oneOf members => exact Nat.lt_succ_of_le (listHeight_le.1 (Nat.le_refl _) node h)
  | anyOf members => exact Nat.lt_succ_of_le (listHeight_le.1 (Nat.le_refl _) node h)
  | _ => cases h

/-- A part is less high than the whole. -/
theorem Node.height_inner_lt {whole node : Node} (h : node ∈ whole.kind.inner) :
    node.height weigh < whole.height weigh := by
  rw [Node.height_eq weigh whole]
  exact Kind.height_inner_lt h

/-- An object is no higher than it has to be for the schemas inside of it. -/
theorem Kind.height_object_le {schema : ObjectSchema} (hbound : 0 < bound)
    (h : ∀ node ∈ (Kind.object schema).inner, node.height weigh < bound) :
    (Kind.object schema).height weigh ≤ bound := by
  obtain ⟨below, rfl⟩ := Nat.exists_eq_add_of_lt hbound
  rw [Nat.zero_add] at h ⊢
  refine Nat.succ_le_succ (ObjectSchema.height_le.2 ⟨fun entry hentry ↦ ?_, fun node hnode ↦ ?_⟩)
  · exact Nat.le_of_lt_succ (h _ (ObjectSchema.property_mem_inner hentry))
  · exact Nat.le_of_lt_succ (h _ (ObjectSchema.additional_mem_inner hnode))

/-! ## Weights -/

section Congruence

variable {weigh' : String → Nat}

mutual

theorem Node.height_congr :
    (node : Node) → (∀ reference, .reference reference ∈ node.mentions →
      weigh reference = weigh' reference) → node.height weigh = node.height weigh'
  | .mk _ _ kind => Kind.height_congr kind
  termination_by structural x => x

theorem Kind.height_congr :
    (kind : Kind) → (∀ reference, .reference reference ∈ kind.mentions →
      weigh reference = weigh' reference) → kind.height weigh = kind.height weigh'
  | .reference target => fun h ↦ congrArg (· + 1) (h target (List.mem_singleton_self _))
  | .object schema => fun h ↦ congrArg (· + 1) (ObjectSchema.height_congr schema h)
  | .array items => fun h ↦ congrArg (· + 1) (Items.height_congr items h)
  | .allOf members => fun h ↦ congrArg (· + 1) (listHeight_congr members h)
  | .oneOf members => fun h ↦ congrArg (· + 1) (listHeight_congr members h)
  | .anyOf members => fun h ↦ congrArg (· + 1) (listHeight_congr members h)
  | .constant .. => fun _ ↦ rfl
  | .enumeration _ => fun _ ↦ rfl
  | .primitive .. => fun _ ↦ rfl
  | .unconstrained => fun _ ↦ rfl
  termination_by structural x => x

theorem ObjectSchema.height_congr :
    (schema : ObjectSchema) → (∀ reference, .reference reference ∈ schema.mentions →
      weigh reference = weigh' reference) → schema.height weigh = schema.height weigh'
  | .mk none _ none _ => fun _ ↦ rfl
  | .mk none _ (some additional) _ => fun h ↦
    congrArg (max 0) (Node.height_congr additional h)
  | .mk (some properties) _ none _ => fun h ↦
    congrArg (max · 0) (propertyHeight_congr properties fun reference hm ↦
      h reference (List.mem_append_left _ hm))
  | .mk (some properties) _ (some additional) _ => fun h ↦ by
    rw [ObjectSchema.height, ObjectSchema.height,
      propertyHeight_congr properties fun reference hm ↦ h reference (List.mem_append_left _ hm),
      Node.height_congr additional fun reference hm ↦ h reference (List.mem_append_right _ hm)]
  termination_by structural x => x

theorem Items.height_congr :
    (items : Items) → (∀ reference, .reference reference ∈ items.mentions →
      weigh reference = weigh' reference) → items.height weigh = items.height weigh'
  | .single item => Node.height_congr item
  | .tuple items => listHeight_congr items
  termination_by structural x => x

theorem listHeight_congr :
    (nodes : List Node) → (∀ reference, .reference reference ∈ listMentions nodes →
      weigh reference = weigh' reference) → listHeight weigh nodes = listHeight weigh' nodes
  | [] => fun _ ↦ rfl
  | node :: rest => fun h ↦ by
    rw [listHeight, listHeight,
      Node.height_congr node fun reference hm ↦ h reference (List.mem_append_left _ hm),
      listHeight_congr rest fun reference hm ↦ h reference (List.mem_append_right _ hm)]
  termination_by structural x => x

theorem propertyHeight_congr :
    (properties : List (String × Node)) →
      (∀ reference, .reference reference ∈ propertyMentions properties →
        weigh reference = weigh' reference) →
      propertyHeight weigh properties = propertyHeight weigh' properties
  | [] => fun _ ↦ rfl
  | (_, node) :: rest => fun h ↦ by
    rw [propertyHeight, propertyHeight,
      Node.height_congr node fun reference hm ↦
        h reference (List.mem_cons_of_mem _ (List.mem_append_left _ hm)),
      propertyHeight_congr rest fun reference hm ↦
        h reference (List.mem_cons_of_mem _ (List.mem_append_right _ hm))]
  termination_by structural x => x

end

end Congruence

/-! ## Merging -/

/-- What two kinds merge into is no higher than the higher one. -/
theorem Kind.height_merge_le {path : String} {left right merged : Kind}
    (h : Kind.merge path left right = .ok merged) :
    merged.height weigh ≤ max (left.height weigh) (right.height weigh) := by
  refine Kind.merge_induction
    (P := fun left right merged ↦
      merged.height weigh ≤ max (left.height weigh) (right.height weigh))
    (fun _ ↦ Nat.le_max_left _ _) ?scalars ?single ?object h
  case scalars =>
    intro path left right merged hscalars
    obtain rfl | rfl | ⟨first, second, rfl, rfl, rfl⟩ := mergeScalars_eq_ok hscalars
    · exact Nat.le_max_left _ _
    · exact Nat.le_max_right _ _
    · exact Nat.zero_le _
  case single =>
    intro first second item ih
    simp only [Kind.height, Items.height, Node.height_eq]
    omega
  case object =>
    intro path first second schema hschema ih
    refine height_object_le (Nat.lt_of_lt_of_le (Nat.succ_pos _) (Nat.le_max_left _ _)) ?_
    refine ObjectSchema.merge_induction (fun node ↦ node.height weigh < _)
      (fun node hnode ↦ Nat.lt_of_lt_of_le (height_inner_lt hnode) (Nat.le_max_left _ _))
      (fun node hnode ↦ Nat.lt_of_lt_of_le (height_inner_lt hnode) (Nat.le_max_right _ _))
      ?_ hschema
    intro node hnode path existing found hexisting hmerge
    have hfound := ih node hnode path existing found hmerge
    have hother : node.height weigh < (Kind.object second).height weigh := height_inner_lt hnode
    simp only [Node.height_eq] at hexisting hother ⊢
    omega

theorem height_mergeKinds_le {path : String} {kinds : List Kind} {merged : Kind}
    (h : mergeKinds path kinds = .ok merged)
    (hkinds : ∀ kind ∈ kinds, kind.height weigh ≤ bound) : merged.height weigh ≤ bound :=
  Failure.foldlM_induction (P := fun soFar ↦ soFar.height weigh ≤ bound) (Nat.zero_le bound) h
    fun kind hkind _ _ hsoFar hmerge ↦
      Nat.le_trans (Kind.height_merge_le hmerge) (Nat.max_le.2 ⟨hsoFar, hkinds kind hkind⟩)

@[simp]
theorem Kind.height_withoutRequired (weigh : String → Nat) (kind : Kind) :
    kind.withoutRequired.height weigh = kind.height weigh := by
  cases kind with
  | object schema =>
    obtain ⟨properties, required, additional, pattern⟩ := schema
    rfl
  | _ => rfl

end SchemaBindings
