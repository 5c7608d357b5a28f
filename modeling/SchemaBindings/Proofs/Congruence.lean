import SchemaBindings.Proofs.Pointwise

/-!
# Merging the same schemas

Schemas that are the same up to the order of properties merge into schemas that are the same: the
merge looks at nothing that the order of properties can change, since it compares schemas by this
equality itself and takes objects name by name.
-/

namespace SchemaBindings

variable {path : String}

namespace Kind

variable {left right left' right' merged : Kind}

def isObject : Kind → Bool
  | .object _ => true
  | _ => false

def isSingle : Kind → Bool
  | .array (.single _) => true
  | _ => false

theorem exists_of_isSingle (h : left.isSingle) : ∃ item, left = .array (.single item) := by
  cases left with
  | array items =>
    cases items with
    | single item => exact ⟨item, rfl⟩
    | tuple => cases h
  | _ => cases h

/-- Kinds that are not both objects and not both arrays of one item schema are merged as a whole. -/
theorem merge_eq_mergeScalars (path : String)
    (hobjects : (left.isObject && right.isObject) = false)
    (hsingles : (left.isSingle && right.isSingle) = false) :
    Kind.merge path left right = mergeScalars path left right := by
  cases right with
  | object second =>
    cases left with
    | object => cases hobjects
    | _ => rfl
  | array items =>
    cases items with
    | tuple => rfl
    | single =>
      cases left with
      | array items =>
        cases items with
        | single => cases hsingles
        | tuple => rfl
      | _ => rfl
  | _ => rfl

theorem same_congr (hleft : left.Regular) (hleft' : left'.Regular) (hright : right.Regular)
    (hl : left.same left') (hr : right.same right') :
    left.same right ↔ left'.same right' := by
  constructor
  · intro h
    exact hleft'.same_trans (hleft.same_symm hl) (hleft.same_trans h hr)
  · intro h
    exact hleft.same_trans hl (hleft'.same_trans h (hright.same_symm hr))

theorem mergeMinimums_same {m n m' n' minimum : Option Double} (hm : sameMinimum m m')
    (hn : sameMinimum n n') (h : mergeMinimums path m n = .ok minimum) :
    ∃ minimum', mergeMinimums path m' n' = .ok minimum' ∧ sameMinimum minimum minimum' := by
  cases m with
  | none =>
    cases m' <;> cases hm
    cases h
    exact ⟨n', rfl, hn⟩
  | some x =>
    cases m' <;> try cases hm
    rename_i x'
    cases n with
    | none =>
      cases n' <;> cases hn
      cases h
      exact ⟨some x', rfl, hm⟩
    | some y =>
      cases n' <;> try cases hn
      rename_i y'
      rw [mergeMinimums] at h
      split at h
      case isFalse => cases h
      case isTrue hsame =>
        cases h
        have hx : x'.same x := (Double.same_comm _ _).trans hm
        have hsame' : x'.same y' := Double.same_trans hx (Double.same_trans hsame hn)
        exact ⟨some x', if_pos hsame', hm⟩

theorem mergePrimitives_same {type type' : Primitive} {m n m' n' : Option Double}
    (hm : sameMinimum m m') (hn : sameMinimum n n')
    (h : mergePrimitives path type type' m n = .ok merged) :
    ∃ merged', mergePrimitives path type type' m' n' = .ok merged' ∧ merged.same merged' := by
  unfold mergePrimitives at h ⊢
  split at h
  case isTrue htype =>
    obtain ⟨minimum, hmerged, rfl⟩ := Failure.map_eq_ok.1 h
    obtain ⟨minimum', hmerged', hsame⟩ := mergeMinimums_same hm hn hmerged
    rw [if_pos htype]
    exact ⟨.primitive type minimum', Failure.map_eq_ok.2 ⟨minimum', hmerged', rfl⟩,
      by simpa [Kind.same] using hsame⟩
  case isFalse => cases h

/-- Of kinds that are merged as a whole. -/
theorem mergeScalars_same (hleft : left.Regular) (hleft' : left'.Regular) (hright : right.Regular)
    (hl : left.same left') (hr : right.same right')
    (h : mergeScalars path left right = .ok merged) :
    ∃ merged', mergeScalars path left' right' = .ok merged' ∧ merged.same merged' := by
  have hmatches := matches_of_same hleft.here hl
  have hmatches' := matches_of_same hright.here hr
  have hcongr := same_congr hleft hleft' hright hl hr
  unfold mergeScalars at h
  split at h
  case h_1 =>
    cases h
    cases hmatches
    exact ⟨right', rfl, hr⟩
  case h_2 =>
    cases h
    cases hmatches'
    exact ⟨left', by cases left' <;> rfl, hl⟩
  case h_3 =>
    cases h
    cases hmatches
    cases hmatches'
    exact ⟨_, rfl, beq_self_eq_true _⟩
  case h_4 =>
    cases h
    cases hmatches
    cases hmatches'
    exact ⟨_, rfl, beq_self_eq_true _⟩
  case h_5 =>
    cases h
    cases hmatches
    cases hmatches'
    exact ⟨_, rfl, beq_self_eq_true _⟩
  case h_6 =>
    cases hmatches with
    | primitive _ hminimum =>
    cases hmatches' with
    | primitive _ hminimum' =>
    exact mergePrimitives_same hminimum hminimum' h
  case h_7 =>
    cases hmatches with
    | constant hvalue hminimum =>
    cases hmatches' with
    | constant hvalue' hminimum' =>
    split at h
    case isFalse => cases h
    case isTrue hsame =>
      cases h
      have hfirst : Json.Distinct _ := hleft.here
      have hfirst' : Json.Distinct _ := hleft'.here
      have hsame' := hfirst'.same_trans (hfirst.same_symm hvalue) (hfirst.same_trans hsame hvalue')
      exact ⟨_, if_pos hsame', by simp [Kind.same, hvalue, hminimum]⟩
  case h_8 =>
    obtain ⟨items, rfl⟩ : ∃ items, left' = .array items := by
      cases hmatches <;> exact ⟨_, rfl⟩
    obtain ⟨items', rfl⟩ : ∃ items', right' = .array items' := by
      cases hmatches' <;> exact ⟨_, rfl⟩
    split at h
    case isFalse => cases h
    case isTrue hsame =>
      cases h
      have hsame' : items.same items' := hcongr.1 hsame
      exact ⟨_, if_pos hsame', hl⟩
  case h_9 =>
    cases hmatches
    cases hmatches'
    exact ⟨merged, h, by
      split at h <;> cases h
      exact beq_self_eq_true _⟩
  case h_10 => split at h <;> cases h

theorem isObject_of_same (hleft : left.Regular) (h : left.same left') :
    left.isObject = left'.isObject := by
  cases matches_of_same hleft.here h <;> rfl

theorem isSingle_of_same (hleft : left.Regular) (h : left.same left') :
    left.isSingle = left'.isSingle := by
  cases matches_of_same hleft.here h <;> rfl

end Kind

theorem mergeAdditional_same {left right left' right' merged : Option Node}
    (hl : Option.Rel (fun a b ↦ a.same b) left left')
    (hr : Option.Rel (fun a b ↦ a.same b) right right')
    (hmerge : ∀ a b a' b' c, left = some a → right = some b → left' = some a' →
      right' = some b' → a.same a' → b.same b' → Node.merge path a b = .ok c →
        ∃ c', Node.merge path a' b' = .ok c' ∧ c.same c')
    (h : mergeAdditional path left right = .ok merged) :
    ∃ merged', mergeAdditional path left' right' = .ok merged' ∧
      Option.Rel (fun a b ↦ a.same b) merged merged' := by
  cases hl with
  | none =>
    rw [mergeAdditional_none_left] at h
    cases h
    exact ⟨right', mergeAdditional_none_left right', hr⟩
  | some hfirst =>
    cases hr with
    | none =>
      cases h
      exact ⟨_, rfl, .some hfirst⟩
    | some hsecond =>
      obtain ⟨c, hc, rfl⟩ := Failure.map_eq_ok.1 h
      obtain ⟨c', hc', hsame⟩ := hmerge _ _ _ _ c rfl rfl rfl rfl hfirst hsecond hc
      exact ⟨some c', Failure.map_eq_ok.2 ⟨c', hc', rfl⟩, .some hsame⟩

/-- Schemas that are the same merge into schemas that are the same, if their kinds do. -/
theorem Node.merge_same_of {left right left' right' merged : Node} (hleft : left.kind.Regular)
    (hleft' : left'.kind.Regular) (hright : right.kind.Regular) (hl : left.same left')
    (hr : right.same right')
    (hkinds : ∀ kind, Kind.merge path left.kind right.kind = .ok kind →
      ∃ kind', Kind.merge path left'.kind right'.kind = .ok kind' ∧ kind.same kind')
    (h : Node.merge path left right = .ok merged) :
    ∃ merged', Node.merge path left' right' = .ok merged' ∧ merged.same merged' := by
  obtain ⟨htitle, hdescription, hkind⟩ := Node.same_iff.1 hl
  obtain ⟨htitle', hdescription', hkind'⟩ := Node.same_iff.1 hr
  have hcongr : left.same right ↔ left'.same right' := by
    rw [Node.same_iff, Node.same_iff, htitle, htitle', hdescription, hdescription',
      Kind.same_congr hleft hleft' hright hkind hkind']
  rw [Node.merge_eq] at h ⊢
  split at h
  case isTrue hsame =>
    cases h
    exact ⟨left', if_pos (hcongr.1 hsame), hl⟩
  case isFalse hsame =>
    obtain ⟨found, hfound, rfl⟩ := Failure.map_eq_ok.1 h
    obtain ⟨found', hfound', hsameFound⟩ := hkinds found hfound
    rw [if_neg (fun hsame' ↦ hsame (hcongr.2 hsame')), hfound', htitle, htitle', hdescription,
      hdescription']
    exact ⟨_, rfl, Node.same_iff.2 ⟨rfl, rfl, hsameFound⟩⟩

/-- Objects that match merge into objects that match, if what they have in the same place does. -/
theorem ObjectSchema.merge_matches {first second first' second' schema : ObjectSchema}
    (hfirst : first.Matches (fun a b ↦ a.same b) first')
    (hsecond : second.Matches (fun a b ↦ a.same b) second')
    (hnames : (Table.keys second.members).Nodup) (hnames' : (Table.keys second'.members).Nodup)
    (hmerge : ∀ path a b a' b' c, a ∈ (Kind.object first).inner →
      b ∈ (Kind.object second).inner → a' ∈ (Kind.object first').inner →
      b' ∈ (Kind.object second').inner → a.same a' → b.same b' → Node.merge path a b = .ok c →
        ∃ c', Node.merge path a' b' = .ok c' ∧ c.same c')
    (h : ObjectSchema.merge path first second = .ok schema) :
    ∃ schema', ObjectSchema.merge path first' second' = .ok schema' ∧
      schema.Matches (fun a b ↦ a.same b) schema' := by
  have hmerged := merged_of_merge hnames h
  have hplace : ∀ name, ∃ node,
      mergeAdditional (Pointer.child (Pointer.child path "properties") name)
        (first'.declared name) (second'.declared name) = .ok node ∧
      Option.Rel (fun a b ↦ a.same b) (schema.declared name) node := by
    intro name
    refine mergeAdditional_same (hfirst.members name) (hsecond.members name) ?_
      (hmerged.members name)
    intro a b a' b' c ha hb ha' hb'
    exact hmerge _ a b a' b' c (declared_mem_inner ha) (declared_mem_inner hb)
      (declared_mem_inner ha') (declared_mem_inner hb')
  have hvalue : ∃ node, mergeAdditional (Pointer.child path "additionalProperties")
      first'.additional second'.additional = .ok node ∧
        Option.Rel (fun a b ↦ a.same b) schema.additional node := by
    refine mergeAdditional_same hfirst.additional hsecond.additional ?_ hmerged.additional
    intro a b a' b' c ha hb ha' hb'
    exact hmerge _ a b a' b' c (additional_mem_inner ha) (additional_mem_inner hb)
      (additional_mem_inner ha') (additional_mem_inner hb')
  obtain ⟨additional, hadditional, hrel⟩ := hvalue
  obtain ⟨schema', hschema'⟩ := exists_merge hnames'
    (fun name ↦ (hplace name).imp fun _ h ↦ h.1) ⟨additional, hadditional⟩
  have hmerged' := merged_of_merge hnames' hschema'
  refine ⟨schema', hschema', ?_, fun name ↦ ?_, ?_, ?_, ?_⟩
  · rw [hmerged.properties, hmerged'.properties, hfirst.properties, hsecond.properties]
  · obtain ⟨node, hnode, hrelated⟩ := hplace name
    cases hnode.symm.trans (hmerged'.members name)
    exact hrelated
  · rw [hmerged.required, hmerged'.required, hfirst.required, hsecond.required]
  · cases hadditional.symm.trans hmerged'.additional
    exact hrel
  · rw [hmerged.pattern, hmerged'.pattern, hfirst.pattern, hsecond.pattern]

namespace Kind

variable {left right left' right' merged : Kind}

/-- Kinds that are the same merge into kinds that are the same. -/
theorem merge_same (hleft : left.Regular) (hleft' : left'.Regular) (hright : right.Regular)
    (hright' : right'.Regular) (hl : left.same left') (hr : right.same right')
    (h : Kind.merge path left right = .ok merged) :
    ∃ merged', Kind.merge path left' right' = .ok merged' ∧ merged.same merged' := by
  have hinduction := hright
  induction hinduction generalizing path left left' right' merged with
  | @intro right _ _ ih =>
    have hmerge : ∀ path a b a' b' c, a ∈ left.inner → b ∈ right.inner → a' ∈ left'.inner →
        b' ∈ right'.inner → Node.same a a' → Node.same b b' → Node.merge path a b = .ok c →
          ∃ c', Node.merge path a' b' = .ok c' ∧ c.same c' := by
      intro path a b a' b' c ha hb ha' hb' hsame hsame'
      refine Node.merge_same_of (hleft.inside ha) (hleft'.inside ha') (hright.inside hb) hsame
        hsame' fun kind ↦ ?_
      exact ih b hb (hleft.inside ha) (hleft'.inside ha') (hright.inside hb) (hright'.inside hb')
        (Node.same_iff.1 hsame).2.2 (Node.same_iff.1 hsame').2.2
    have hmatches := matches_of_same hleft.here hl
    have hmatches' := matches_of_same hright.here hr
    by_cases hobjects : (left.isObject && right.isObject) = true
    · cases left <;> try cases hobjects
      cases right <;> try cases hobjects
      cases hmatches with
      | @object first first' hfirst =>
      cases hmatches' with
      | @object second second' hsecond =>
      obtain ⟨schema, hschema, rfl⟩ := Failure.map_eq_ok.1 h
      obtain ⟨schema', hschema', hsame⟩ := ObjectSchema.merge_matches hfirst hsecond
        hright.here hright'.here hmerge hschema
      have h' : Kind.merge path (.object first') (.object second') = .ok (.object schema') :=
        Failure.map_eq_ok.2 ⟨schema', hschema', rfl⟩
      exact ⟨.object schema', h', same_of_matches (hleft.merge hright h).here
        (hleft'.merge hright' h').here (.object hsame)⟩
    by_cases hsingles : (left.isSingle && right.isSingle) = true
    · rw [Bool.and_eq_true] at hsingles
      obtain ⟨item, rfl⟩ := exists_of_isSingle hsingles.1
      obtain ⟨item', rfl⟩ := exists_of_isSingle hsingles.2
      cases hmatches with
      | @single _ other hfirst =>
      cases hmatches' with
      | @single _ other' hsecond =>
      obtain ⟨node, hnode, rfl⟩ := Failure.map_eq_ok.1 h
      obtain ⟨node', hnode', hsame⟩ := hmerge _ item item' other other' node (.head _) (.head _)
        (.head _) (.head _) hfirst hsecond hnode
      exact ⟨.array (.single node'), Failure.map_eq_ok.2 ⟨node', hnode', rfl⟩, hsame⟩
    · rw [Bool.not_eq_true] at hobjects hsingles
      have hplain := merge_eq_mergeScalars path hobjects hsingles
      rw [isObject_of_same hleft hl, isObject_of_same hright hr] at hobjects
      rw [isSingle_of_same hleft hl, isSingle_of_same hright hr] at hsingles
      rw [merge_eq_mergeScalars path hobjects hsingles]
      exact mergeScalars_same hleft hleft' hright hl hr (hplain.symm.trans h)

theorem foldlM_merge_same {start start' : Kind} {kinds kinds' : List Kind}
    (hstart : start.Regular) (hstart' : start'.Regular) (hkinds : ∀ kind ∈ kinds, kind.Regular)
    (hkinds' : ∀ kind ∈ kinds', kind.Regular) (hsame : start.same start')
    (hall : List.Forall₂ (fun a b ↦ same a b) kinds kinds')
    (h : kinds.foldlM (Kind.merge path) start = .ok merged) :
    ∃ merged', kinds'.foldlM (Kind.merge path) start' = .ok merged' ∧ merged.same merged' := by
  induction hall generalizing start start' with
  | nil =>
    cases h
    exact ⟨start', rfl, hsame⟩
  | cons hhead _ ih =>
    obtain ⟨hkind, hrest⟩ := List.forall_mem_cons.1 hkinds
    obtain ⟨hkind', hrest'⟩ := List.forall_mem_cons.1 hkinds'
    rw [List.foldlM_cons] at h
    obtain ⟨next, hnext, hlast⟩ := Failure.bind_eq_ok.1 h
    obtain ⟨next', hnext', hsameNext⟩ := merge_same hstart hstart' hkind hkind' hsame hhead hnext
    obtain ⟨merged', hmerged', hsameMerged⟩ := ih (hstart.merge hkind hnext)
      (hstart'.merge hkind' hnext') hrest hrest' hsameNext hlast
    exact ⟨merged', Failure.bind_eq_ok.2 ⟨next', hnext', hmerged'⟩, hsameMerged⟩

theorem withoutRequired_same (h : left.same right) :
    left.withoutRequired.same right.withoutRequired := by
  cases left with
  | object first =>
    cases right <;> try cases h
    rename_i second
    obtain ⟨properties, required, additional, pattern⟩ := first
    obtain ⟨properties', required', additional', pattern'⟩ := second
    obtain ⟨hproperties, -, hadditional, hpattern⟩ := ObjectSchema.same_iff.1 h
    exact ObjectSchema.same_iff.2 ⟨hproperties, rfl, hadditional, hpattern⟩
  | _ => cases right <;> first | exact h | cases h

end Kind

/-- Lists of kinds that are the same merge into kinds that are the same. -/
theorem mergeKinds_same {kinds kinds' : List Kind} {merged : Kind}
    (hkinds : ∀ kind ∈ kinds, kind.Regular) (hkinds' : ∀ kind ∈ kinds', kind.Regular)
    (hall : List.Forall₂ (fun a b ↦ a.same b) kinds kinds')
    (h : mergeKinds path kinds = .ok merged) :
    ∃ merged', mergeKinds path kinds' = .ok merged' ∧ merged.same merged' := by
  have hstart : Kind.unconstrained.Regular := .of_leaf trivial rfl
  exact Kind.foldlM_merge_same hstart hstart hkinds hkinds' rfl hall h

end SchemaBindings
