import SchemaBindings.Proofs.Pointwise

/-!
# Merged kinds as least upper bounds

Kinds are ordered by what they demand: nothing is below everything, a text is below every
enumeration, and of two objects the lower one has fewer properties with lower schemas. Where no
composition occurs, and no text or constant has a minimum, merging two kinds gives the least kind
above both, and fails only if there is none. Upper bounds of a list do not depend on its order, and
so neither do success and, up to what the order cannot see, the result.
-/

namespace SchemaBindings

variable {path : String}

/-- No composition, and no text or constant with a minimum. -/
def Kind.IsPlain : Kind → Prop
  | .allOf _ => False
  | .oneOf _ => False
  | .anyOf _ => False
  | .constant _ minimum => minimum = none
  | .primitive .string minimum => minimum = none
  | _ => True

/-- Equal up to titles and descriptions, the order of properties, the order and repetition of cases
and required names, the signs of zeros, and the order of entries inside of constants. -/
inductive Kind.Alike : Kind → Kind → Prop
  | unconstrained : Alike .unconstrained .unconstrained
  | reference (target : String) : Alike (.reference target) (.reference target)
  | constant {a b : Json} {m n : Option Double} (hvalue : a.same b)
      (hminimum : sameMinimum m n) : Alike (.constant a m) (.constant b n)
  | enumeration {a b : List String} (h : ∀ value, value ∈ a ↔ value ∈ b) :
      Alike (.enumeration a) (.enumeration b)
  | primitive (type : Primitive) {m n : Option Double} (hminimum : sameMinimum m n) :
      Alike (.primitive type m) (.primitive type n)
  | object {a b : ObjectSchema} (hproperties : a.properties.isSome ↔ b.properties.isSome)
      (hnames : ∀ name, (a.declared name).isSome ↔ (b.declared name).isSome)
      (hmembers : ∀ name x y, a.declared name = some x → b.declared name = some y →
        Alike x.kind y.kind)
      (hrequired : a.required.isSome ↔ b.required.isSome)
      (hrequiredNames : ∀ name, name ∈ a.required.getD [] ↔ name ∈ b.required.getD [])
      (hadditional : a.additional.isSome ↔ b.additional.isSome)
      (hvalues : ∀ x y, a.additional = some x → b.additional = some y → Alike x.kind y.kind)
      (hpattern : a.pattern = b.pattern) : Alike (.object a) (.object b)
  | single {a b : Node} (h : Alike a.kind b.kind) :
      Alike (.array (.single a)) (.array (.single b))
  | tuple {a b : List Node} (h : sameNodes a b) : Alike (.array (.tuple a)) (.array (.tuple b))

/-- The second kind demands all that the first one demands. -/
inductive Kind.Below : Kind → Kind → Prop
  | unconstrained (upper : Kind) : Below .unconstrained upper
  | reference (target : String) : Below (.reference target) (.reference target)
  | constant {a b : Json} (h : a.same b) : Below (.constant a none) (.constant b none)
  | enumeration {a b : List String} (h : a ⊆ b) : Below (.enumeration a) (.enumeration b)
  | text (values : List String) : Below (.primitive .string none) (.enumeration values)
  | primitive (type : Primitive) {m n : Option Double} (h : m = none ∨ sameMinimum m n) :
      Below (.primitive type m) (.primitive type n)
  | object {a b : ObjectSchema} (hproperties : a.properties.isSome → b.properties.isSome)
      (hnames : ∀ name, (a.declared name).isSome → (b.declared name).isSome)
      (hmembers : ∀ name x y, a.declared name = some x → b.declared name = some y →
        Below x.kind y.kind)
      (hrequired : a.required.isSome → b.required.isSome)
      (hrequiredNames : a.required.getD [] ⊆ b.required.getD [])
      (hadditional : a.additional.isSome → b.additional.isSome)
      (hvalues : ∀ x y, a.additional = some x → b.additional = some y → Below x.kind y.kind)
      (hpattern : a.pattern → b.pattern) : Below (.object a) (.object b)
  | single {a b : Node} (h : Below a.kind b.kind) :
      Below (.array (.single a)) (.array (.single b))
  | tuple {a b : List Node} (h : sameNodes a b) : Below (.array (.tuple a)) (.array (.tuple b))

/-- Kinds that are below each other are alike. -/
theorem Kind.Below.antisymm {left right : Kind} (hleft : left.Below right)
    (hright : right.Below left) : left.Alike right := by
  induction hleft with
  | unconstrained =>
    cases hright
    exact .unconstrained
  | reference target => exact .reference target
  | constant h => exact .constant h rfl
  | enumeration h =>
    cases hright with
    | enumeration h' => exact .enumeration fun _ ↦ ⟨fun hmem ↦ h hmem, fun hmem ↦ h' hmem⟩
  | text => cases hright
  | primitive type h =>
    cases hright with
    | primitive _ h' =>
      refine .primitive type ?_
      obtain rfl | hsame := h
      · obtain rfl | hsame' := h'
        · rfl
        · exact (sameMinimum_comm _ _).trans hsame'
      · exact hsame
  | object hproperties hnames _ hrequired hrequiredNames hadditional _ hpattern ih ihValues =>
    cases hright with
    | object hproperties' hnames' hmembers' hrequired' hrequiredNames' hadditional' hvalues'
        hpattern' =>
      exact .object ⟨hproperties, hproperties'⟩ (fun name ↦ ⟨hnames name, hnames' name⟩)
        (fun name x y hx hy ↦ ih name x y hx hy (hmembers' name y x hy hx))
        ⟨hrequired, hrequired'⟩
        (fun _ ↦ ⟨fun hmem ↦ hrequiredNames hmem, fun hmem ↦ hrequiredNames' hmem⟩)
        ⟨hadditional, hadditional'⟩ (fun x y hx hy ↦ ihValues x y hx hy (hvalues' y x hy hx))
        (Bool.eq_iff_iff.2 ⟨hpattern, hpattern'⟩)
  | single _ ih =>
    cases hright with
    | single h' => exact .single (ih h')
  | tuple h => exact .tuple h

theorem none_of_sameMinimum {m : Option Double} (h : sameMinimum m none) : m = none := by
  cases m with
  | none => rfl
  | some x => cases h

namespace Kind

variable {left right merged lower upper : Kind}

/-- The same kind is below, if there is nothing in it that the order does not speak of. -/
theorem Below.of_same (hplain : left.Throughout IsPlain) (hregular : left.Regular)
    (h : left.same right) : left.Below right := by
  induction hplain generalizing right with
  | @intro left here _ ih =>
    have hinner : ∀ node ∈ left.inner, ∀ other, node.same other → node.kind.Below other.kind :=
      fun node hnode other hsame ↦
        ih node hnode (hregular.inside hnode) (Node.same_iff.1 hsame).2.2
    have hmatches := matches_of_same hregular.here h
    clear h
    cases hmatches with
    | reference target => exact .reference target
    | @constant _ _ m n hvalue hminimum =>
      cases here
      cases n
      · exact .constant hvalue
      · cases hminimum
    | enumeration => exact .enumeration (List.Subset.refl _)
    | object h =>
      refine .object (fun hsome ↦ h.properties ▸ hsome) (fun name ↦ isSome_of_rel (h.members name))
        (fun name x y hx hy ↦ ?_) (fun hsome ↦ h.required ▸ hsome)
        (h.required ▸ List.Subset.refl _) (isSome_of_rel h.additional) (fun x y hx hy ↦ ?_)
        (fun hpattern ↦ h.pattern ▸ hpattern)
      · exact hinner x (ObjectSchema.declared_mem_inner hx) y
          (related_of_rel (h.members name) hx hy)
      · exact hinner x (ObjectSchema.additional_mem_inner hx) y
          (related_of_rel h.additional hx hy)
    | single h => exact .single (hinner _ (.head _) _ h)
    | tuple h => exact .tuple (sameNodes_iff.2 h)
    | allOf => cases here
    | oneOf => cases here
    | anyOf => cases here
    | primitive type hminimum => exact .primitive type (.inr hminimum)
    | unconstrained => exact .unconstrained _

theorem Below.refl (hplain : left.Throughout IsPlain) (hregular : left.Regular) :
    left.Below left :=
  .of_same hplain hregular hregular.same_refl

theorem Below.trans {middle : Kind} (hregular : lower.Regular) (hlower : lower.Below middle)
    (hupper : middle.Below upper) : lower.Below upper := by
  induction hlower generalizing upper with
  | unconstrained => exact .unconstrained upper
  | reference => exact hupper
  | constant h =>
    cases hupper with
    | constant h' =>
      have hdistinct : Json.Distinct _ := hregular.here
      exact .constant (hdistinct.same_trans h h')
  | enumeration h =>
    cases hupper with
    | enumeration h' => exact .enumeration (List.Subset.trans h h')
  | text values =>
    cases hupper with
    | enumeration h' => exact .text _
  | primitive type h =>
    cases hupper with
    | text values =>
      obtain rfl := h.elim id none_of_sameMinimum
      exact .text values
    | primitive _ h' =>
      refine .primitive type ?_
      obtain rfl | hsame := h
      · exact .inl rfl
      · obtain rfl | hsame' := h'
        · exact .inl (none_of_sameMinimum hsame)
        · exact .inr (sameMinimum_trans hsame hsame')
  | object hproperties hnames _ hrequired hrequiredNames hadditional _ hpattern ih ihValues =>
    cases hupper with
    | object hproperties' hnames' hmembers' hrequired' hrequiredNames' hadditional' hvalues'
        hpattern' =>
      refine .object (hproperties' ∘ hproperties) (fun name ↦ hnames' name ∘ hnames name)
        (fun name x z hx hz ↦ ?_) (hrequired' ∘ hrequired)
        (List.Subset.trans hrequiredNames hrequiredNames') (hadditional' ∘ hadditional)
        (fun x z hx hz ↦ ?_) (hpattern' ∘ hpattern)
      · obtain ⟨y, hy⟩ := Option.isSome_iff_exists.1 (hnames name (hx ▸ rfl))
        have hinner := ObjectSchema.declared_mem_inner hx
        exact ih name x y hx hy (hregular.inside hinner) (hmembers' name y z hy hz)
      · obtain ⟨y, hy⟩ := Option.isSome_iff_exists.1 (hadditional (hx ▸ rfl))
        have hinner := ObjectSchema.additional_mem_inner hx
        exact ihValues x y hx hy (hregular.inside hinner) (hvalues' y z hy hz)
  | single _ ih =>
    cases hupper with
    | single h' => exact .single (ih (hregular.inside (.head _)) h')
  | tuple h =>
    cases hupper with
    | tuple h' =>
      refine .tuple (sameNodes_iff.2 (forall₂_trans (sameNodes_iff.1 h) (sameNodes_iff.1 h') ?_))
      intro node hnode y z
      exact Node.same_trans (hregular.inside hnode)

/-- What the order speaks of throughout. -/
structure Comparable (kind : Kind) : Prop where
  plain : kind.Throughout IsPlain
  regular : kind.Regular

namespace Comparable

theorem inside (h : left.Comparable) {node : Node} (hnode : node ∈ left.inner) :
    node.kind.Comparable :=
  ⟨h.plain.inside hnode, h.regular.inside hnode⟩

theorem below_self (h : left.Comparable) : left.Below left := .refl h.plain h.regular

theorem below_of_same (h : right.Comparable) (hleft : left.Comparable) (hsame : left.same right) :
    right.Below left :=
  .of_same h.plain h.regular (hleft.regular.same_symm hsame)

theorem merge (hleft : left.Comparable) (hright : right.Comparable)
    (h : Kind.merge path left right = .ok merged) : merged.Comparable where
  plain := Throughout.merge (fun _ _ _ ↦ trivial) (fun _ ↦ trivial) (fun _ ↦ trivial)
    hleft.plain hright.plain h
  regular := hleft.regular.merge hright.regular h

end Comparable

/-! ## Merged kinds are upper bounds -/

theorem below_mergePrimitives {type type' : Primitive} {m n : Option Double}
    (hleft : (Kind.primitive type m).Comparable) (hright : (Kind.primitive type' n).Comparable)
    (h : mergePrimitives path type type' m n = .ok merged) :
    (Kind.primitive type m).Below merged ∧ (Kind.primitive type' n).Below merged := by
  unfold mergePrimitives at h
  split at h
  case isFalse => cases h
  case isTrue htype =>
    subst htype
    obtain ⟨minimum, hminimum, rfl⟩ := Failure.map_eq_ok.1 h
    unfold mergeMinimums at hminimum
    split at hminimum
    case h_1 x y =>
      split at hminimum <;> cases hminimum
      case isTrue hsame =>
        exact ⟨hleft.below_self, .primitive _ (.inr ((Double.same_comm y x).trans hsame))⟩
    case h_2 =>
      cases hminimum
      exact ⟨hleft.below_self, .primitive _ (.inl rfl)⟩
    case h_3 =>
      cases hminimum
      exact ⟨.primitive _ (.inl rfl), hright.below_self⟩

theorem below_mergeScalars (hleft : left.Comparable) (hright : right.Comparable)
    (h : mergeScalars path left right = .ok merged) : left.Below merged ∧ right.Below merged := by
  unfold mergeScalars at h
  split at h
  case h_1 =>
    cases h
    exact ⟨.unconstrained _, hright.below_self⟩
  case h_2 =>
    cases h
    exact ⟨hleft.below_self, .unconstrained _⟩
  case h_3 =>
    cases h
    exact ⟨.enumeration fun _ hmem ↦ mem_addAllNew.2 (.inl hmem),
      .enumeration fun _ hmem ↦ mem_addAllNew.2 (.inr hmem)⟩
  case h_4 =>
    cases h
    obtain rfl : _ = none := hright.plain.here
    exact ⟨hleft.below_self, .text _⟩
  case h_5 =>
    cases h
    obtain rfl : _ = none := hleft.plain.here
    exact ⟨.text _, hright.below_self⟩
  case h_6 => exact below_mergePrimitives hleft hright h
  case h_7 =>
    split at h <;> cases h
    obtain rfl : _ = none := hleft.plain.here
    obtain rfl : _ = none := hright.plain.here
    have hdistinct : Json.Distinct _ := hleft.regular.here
    exact ⟨hleft.below_self, .constant (hdistinct.same_symm ‹_›)⟩
  case h_8 =>
    split at h <;> cases h
    exact ⟨hleft.below_self, hright.below_of_same hleft ‹_›⟩
  case h_9 =>
    split at h <;> cases h
    subst_vars
    exact ⟨.reference _, .reference _⟩
  case h_10 => split at h <;> cases h

end Kind

theorem isSome_mergeRequired (left right : Option (List String)) :
    (mergeRequired left right).isSome = (left.isSome || right.isSome) := by
  cases left <;> cases right <;> rfl

theorem mem_mergeRequired {left right : Option (List String)} {name : String} :
    name ∈ (mergeRequired left right).getD [] ↔ name ∈ left.getD [] ∨ name ∈ right.getD [] := by
  cases left <;> cases right <;> simp [mergeRequired]

/-- In one place of an object: the second schema is there if the first one is, and demands all that
the first one demands. -/
def Node.PartBelow (lower upper : Option Node) : Prop :=
  (lower.isSome → upper.isSome) ∧
    ∀ a b, lower = some a → upper = some b → a.kind.Below b.kind

/-- The second object has all that the first one has, and demands all that it demands. -/
structure ObjectSchema.Below (lower upper : ObjectSchema) : Prop where
  properties : lower.properties.isSome → upper.properties.isSome
  members : ∀ name, Node.PartBelow (lower.declared name) (upper.declared name)
  required : lower.required.isSome → upper.required.isSome
  names : lower.required.getD [] ⊆ upper.required.getD []
  additional : Node.PartBelow lower.additional upper.additional
  pattern : lower.pattern → upper.pattern

theorem Kind.below_object_iff {lower upper : ObjectSchema} :
    (Kind.object lower).Below (.object upper) ↔ lower.Below upper := by
  constructor
  · intro h
    cases h with
    | object hproperties hnames hmembers hrequired hrequiredNames hadditional hvalues hpattern =>
      exact ⟨hproperties, fun name ↦ ⟨hnames name, hmembers name⟩, hrequired, hrequiredNames,
        ⟨hadditional, hvalues⟩, hpattern⟩
  · intro h
    exact .object h.properties (fun name ↦ (h.members name).1) (fun name ↦ (h.members name).2)
      h.required h.names h.additional.1 h.additional.2 h.pattern

namespace Node.PartBelow

theorem none_left (upper : Option Node) : PartBelow none upper := ⟨nofun, nofun⟩

theorem refl {part : Option Node} (h : ∀ node, part = some node → node.kind.Comparable) :
    PartBelow part part := by
  refine ⟨id, fun a b ha hb ↦ ?_⟩
  cases ha.symm.trans hb
  exact (h a ha).below_self

theorem some_some {lower upper : Node} (h : lower.kind.Below upper.kind) :
    PartBelow (some lower) (some upper) := by
  refine ⟨fun _ ↦ rfl, ?_⟩
  rintro _ _ ⟨⟩ ⟨⟩
  exact h

end Node.PartBelow

theorem below_mergeAdditional {left right merged : Option Node}
    (hleft : ∀ a, left = some a → a.kind.Comparable)
    (hright : ∀ b, right = some b → b.kind.Comparable)
    (hmerge : ∀ a b c, left = some a → right = some b → Node.merge path a b = .ok c →
      a.kind.Below c.kind ∧ b.kind.Below c.kind)
    (h : mergeAdditional path left right = .ok merged) :
    Node.PartBelow left merged ∧ Node.PartBelow right merged := by
  cases left with
  | none =>
    rw [mergeAdditional_none_left] at h
    cases h
    exact ⟨.none_left _, .refl hright⟩
  | some a =>
    cases right with
    | none =>
      cases h
      exact ⟨.refl hleft, .none_left _⟩
    | some b =>
      obtain ⟨c, hc, rfl⟩ := Failure.map_eq_ok.1 h
      obtain ⟨hbelow, hbelow'⟩ := hmerge a b c rfl rfl hc
      exact ⟨.some_some hbelow, .some_some hbelow'⟩

namespace ObjectSchema

variable {first second schema upper : ObjectSchema}

/-- A merged object is above both objects, if all places of it are. -/
theorem Merged.below (h : Merged path first second schema)
    (hmembers : ∀ name, Node.PartBelow (first.declared name) (schema.declared name) ∧
      Node.PartBelow (second.declared name) (schema.declared name))
    (hadditional : Node.PartBelow first.additional schema.additional ∧
      Node.PartBelow second.additional schema.additional) :
    first.Below schema ∧ second.Below schema := by
  constructor
  · refine ⟨fun hsome ↦ ?_, fun name ↦ (hmembers name).1, fun hsome ↦ ?_, fun name hname ↦ ?_,
      hadditional.1, fun hpattern ↦ ?_⟩
    · rw [h.properties, hsome, Bool.true_or]
    · rw [h.required, isSome_mergeRequired, hsome, Bool.true_or]
    · rw [h.required]
      exact mem_mergeRequired.2 (.inl hname)
    · rw [h.pattern, hpattern, Bool.true_or]
  · refine ⟨fun hsome ↦ ?_, fun name ↦ (hmembers name).2, fun hsome ↦ ?_, fun name hname ↦ ?_,
      hadditional.2, fun hpattern ↦ ?_⟩
    · rw [h.properties, hsome, Bool.or_true]
    · rw [h.required, isSome_mergeRequired, hsome, Bool.or_true]
    · rw [h.required]
      exact mem_mergeRequired.2 (.inr hname)
    · rw [h.pattern, hpattern, Bool.or_true]

/-- A merged object is below what is above both objects, if all places of it are. -/
theorem Merged.below_of (h : Merged path first second schema) (hfirst : first.Below upper)
    (hsecond : second.Below upper)
    (hmembers : ∀ name, Node.PartBelow (schema.declared name) (upper.declared name))
    (hadditional : Node.PartBelow schema.additional upper.additional) : schema.Below upper := by
  refine ⟨fun hsome ↦ ?_, hmembers, fun hsome ↦ ?_, fun name hname ↦ ?_, hadditional,
    fun hpattern ↦ ?_⟩
  · rw [h.properties, Bool.or_eq_true] at hsome
    exact hsome.elim hfirst.properties hsecond.properties
  · rw [h.required, isSome_mergeRequired, Bool.or_eq_true] at hsome
    exact hsome.elim hfirst.required hsecond.required
  · rw [h.required, mem_mergeRequired] at hname
    exact hname.elim (hfirst.names ·) (hsecond.names ·)
  · rw [h.pattern, Bool.or_eq_true] at hpattern
    exact hpattern.elim hfirst.pattern hsecond.pattern

end ObjectSchema

namespace Kind

variable {left right merged lower upper : Kind}

/-- What two kinds merge into demands what each of them demands. -/
theorem below_merge (hleft : left.Comparable) (hright : right.Comparable)
    (h : Kind.merge path left right = .ok merged) : left.Below merged ∧ right.Below merged := by
  refine Kind.merge_induction
    (P := fun left right merged ↦ left.Comparable → right.Comparable →
      left.Below merged ∧ right.Below merged)
    ?same (fun hscalars hleft hright ↦ below_mergeScalars hleft hright hscalars) ?single ?object
    h hleft hright
  case same =>
    intro left right hsame hleft hright
    exact ⟨hleft.below_self, hright.below_of_same hleft (Node.same_iff.1 hsame).2.2⟩
  case single =>
    intro first second item ih hleft hright
    have hbelow := ih (hleft.inside (.head _)) (hright.inside (.head _))
    exact ⟨.single hbelow.1, .single hbelow.2⟩
  case object =>
    intro path first second schema hschema ih hleft hright
    have hmerged := ObjectSchema.merged_of_merge hright.regular.here hschema
    have hmembers : ∀ name, Node.PartBelow (first.declared name) (schema.declared name) ∧
        Node.PartBelow (second.declared name) (schema.declared name) := by
      intro name
      have hproperty : ∀ a, first.declared name = some a → a.kind.Comparable :=
        fun a ha ↦ hleft.inside (ObjectSchema.declared_mem_inner ha)
      have hinner : ∀ b, second.declared name = some b → b ∈ (Kind.object second).inner :=
        fun b hb ↦ ObjectSchema.declared_mem_inner hb
      exact below_mergeAdditional hproperty (fun b hb ↦ hright.inside (hinner b hb))
        (fun a b c ha hb hmerge ↦ ih b (hinner b hb) _ a c hmerge (hproperty a ha)
          (hright.inside (hinner b hb)))
        (hmerged.members name)
    have hvalue : ∀ a, first.additional = some a → a.kind.Comparable :=
      fun a ha ↦ hleft.inside (ObjectSchema.additional_mem_inner ha)
    have hadditional := below_mergeAdditional hvalue
      (fun b hb ↦ hright.inside (ObjectSchema.additional_mem_inner hb))
      (fun a b c ha hb hmerge ↦ ih b (ObjectSchema.additional_mem_inner hb) _ a c hmerge
        (hvalue a ha) (hright.inside (ObjectSchema.additional_mem_inner hb)))
      hmerged.additional
    obtain ⟨hbelow, hbelow'⟩ := hmerged.below hmembers hadditional
    exact ⟨below_object_iff.2 hbelow, below_object_iff.2 hbelow'⟩

/-! ## Merged kinds are below other upper bounds -/

theorem mergeScalars_unconstrained (left : Kind) :
    mergeScalars path left .unconstrained = .ok left := by
  cases left <;> rfl

theorem mergeScalars_primitive (type : Primitive) (m n : Option Double) :
    mergeScalars path (.primitive type m) (.primitive type n) =
      (mergeMinimums path m n).map (.primitive type) := by
  cases type <;> simp [mergeScalars, mergePrimitives]

theorem merge_unconstrained (right : Kind) : Kind.merge path .unconstrained right = .ok right := by
  cases right with
  | array items => cases items <;> rfl
  | _ => rfl

theorem exists_mergeMinimums (path : String) {m n upper : Option Double}
    (hm : m = none ∨ sameMinimum m upper)
    (hn : n = none ∨ sameMinimum n upper) : ∃ minimum, mergeMinimums path m n = .ok minimum ∧
      (minimum = none ∨ sameMinimum minimum upper) := by
  cases m with
  | none => exact ⟨n, rfl, hn⟩
  | some x =>
    cases n with
    | none => exact ⟨some x, rfl, hm⟩
    | some y =>
      have hx : sameMinimum (some x) upper := hm.resolve_left nofun
      have hy : sameMinimum (some y) upper := hn.resolve_left nofun
      have hsame : sameMinimum (some x) (some y) :=
        sameMinimum_trans hx ((sameMinimum_comm _ _).trans hy)
      have hxy : x.same y := hsame
      exact ⟨some x, if_pos hxy, .inr hx⟩

/-- Of kinds that are merged as a whole. -/
theorem exists_mergeScalars_of_below (hregular : left.Regular) (hright : right.Regular)
    (hleft : left.Below upper) (hupper : right.Below upper)
    (hobject : ∀ schema, right ≠ .object schema)
    (hsingle : ∀ item, right ≠ .array (.single item)) :
    ∃ merged, mergeScalars path left right = .ok merged ∧ merged.Below upper := by
  cases hupper with
  | unconstrained => exact ⟨left, mergeScalars_unconstrained left, hleft⟩
  | reference target =>
    cases hleft with
    | unconstrained => exact ⟨_, rfl, .reference target⟩
    | reference => exact ⟨_, if_pos rfl, .reference target⟩
  | constant h =>
    cases hleft with
    | unconstrained => exact ⟨_, rfl, .constant h⟩
    | @constant a _ h' =>
      have hdistinct : Json.Distinct _ := hregular.here
      have hdistinct' : Json.Distinct _ := hright.here
      have hsame : a.same _ := hdistinct.same_trans h' (hdistinct'.same_symm h)
      exact ⟨_, if_pos hsame, .constant h'⟩
  | enumeration h =>
    cases hleft with
    | unconstrained => exact ⟨_, rfl, .enumeration h⟩
    | enumeration h' =>
      exact ⟨_, rfl, .enumeration fun _ hmem ↦ (mem_addAllNew.1 hmem).elim (h' ·) (h ·)⟩
    | text => exact ⟨_, rfl, .enumeration h⟩
  | text values =>
    cases hleft with
    | unconstrained => exact ⟨_, rfl, .text values⟩
    | enumeration h' => exact ⟨_, rfl, .enumeration h'⟩
    | text => exact ⟨_, rfl, .text values⟩
  | primitive type h =>
    cases hleft with
    | unconstrained => exact ⟨_, rfl, .primitive type h⟩
    | primitive _ h' =>
      obtain ⟨minimum, hminimum, hbelow⟩ := exists_mergeMinimums path h' h
      refine ⟨.primitive type minimum, ?_, .primitive type hbelow⟩
      rw [mergeScalars_primitive]
      exact Failure.map_eq_ok.2 ⟨minimum, hminimum, rfl⟩
  | object => exact absurd rfl (hobject _)
  | single => exact absurd rfl (hsingle _)
  | tuple h =>
    cases hleft with
    | unconstrained => exact ⟨_, rfl, .tuple h⟩
    | @tuple first _ h' =>
      rename_i second third
      have hback : List.Forall₂ (fun b c ↦ b.same c) third second :=
        forall₂_symm (sameNodes_iff.1 h) fun node hnode _ ↦ Node.same_symm (hright.inside hnode)
      have hsame : sameNodes first second :=
        sameNodes_iff.2 (forall₂_trans (sameNodes_iff.1 h') hback fun node hnode _ _ ↦
          Node.same_trans (hregular.inside hnode))
      exact ⟨_, if_pos hsame, .tuple h'⟩

end Kind

theorem exists_mergeAdditional_of_below {left right upper : Option Node}
    (hleft : Node.PartBelow left upper) (hright : Node.PartBelow right upper)
    (hmerge : ∀ a b c, left = some a → right = some b → upper = some c →
      ∃ merged, Node.merge path a b = .ok merged ∧ merged.kind.Below c.kind) :
    ∃ merged, mergeAdditional path left right = .ok merged ∧ Node.PartBelow merged upper := by
  cases left with
  | none => exact ⟨right, mergeAdditional_none_left right, hright⟩
  | some a =>
    cases right with
    | none => exact ⟨some a, rfl, hleft⟩
    | some b =>
      obtain ⟨c, rfl⟩ := Option.isSome_iff_exists.1 (hleft.1 rfl)
      obtain ⟨merged, hmerged, hbelow⟩ := hmerge a b c rfl rfl rfl
      exact ⟨some merged, Failure.map_eq_ok.2 ⟨merged, hmerged, rfl⟩, .some_some hbelow⟩

/-- Objects with an upper bound can be merged, if what they have in the same place can be. -/
theorem ObjectSchema.exists_merge_of_below {first second upper : ObjectSchema}
    (hsecond : (Table.keys second.members).Nodup) (hfirst : first.Below upper)
    (hupper : second.Below upper)
    (hmerge : ∀ path (a b c : Node), a ∈ (Kind.object first).inner →
      b ∈ (Kind.object second).inner → a.kind.Below c.kind → b.kind.Below c.kind →
        ∃ merged, Node.merge path a b = .ok merged ∧ merged.kind.Below c.kind) :
    ∃ schema, ObjectSchema.merge path first second = .ok schema ∧ schema.Below upper := by
  have hplace : ∀ path name, ∃ merged,
      mergeAdditional path (first.declared name) (second.declared name) = .ok merged ∧
        Node.PartBelow merged (upper.declared name) := by
    intro path name
    refine exists_mergeAdditional_of_below (hfirst.members name) (hupper.members name) ?_
    intro a b c ha hb hc
    exact hmerge path a b c (declared_mem_inner ha) (declared_mem_inner hb)
      ((hfirst.members name).2 a c ha hc) ((hupper.members name).2 b c hb hc)
  have hvalue : ∃ merged, mergeAdditional (Pointer.child path "additionalProperties")
      first.additional second.additional = .ok merged ∧
        Node.PartBelow merged upper.additional := by
    refine exists_mergeAdditional_of_below hfirst.additional hupper.additional ?_
    intro a b c ha hb hc
    exact hmerge _ a b c (additional_mem_inner ha) (additional_mem_inner hb)
      (hfirst.additional.2 a c ha hc) (hupper.additional.2 b c hb hc)
  obtain ⟨additional, hadditional, hbelow⟩ := hvalue
  obtain ⟨schema, hschema⟩ := exists_merge hsecond
    (fun name ↦ (hplace _ name).imp fun _ h ↦ h.1) ⟨additional, hadditional⟩
  have hmerged := merged_of_merge hsecond hschema
  cases hadditional.symm.trans hmerged.additional
  refine ⟨schema, hschema, hmerged.below_of hfirst hupper (fun name ↦ ?_) hbelow⟩
  obtain ⟨node, hnode, hbelow⟩ := hplace _ name
  cases hnode.symm.trans (hmerged.members name)
  exact hbelow

namespace Kind

variable {left right merged lower upper : Kind}

/-- Kinds with an upper bound can be merged, into a kind below that bound. -/
theorem exists_merge_of_below (hregular : left.Regular) (hright : right.Regular)
    (hleft : left.Below upper) (hupper : right.Below upper) :
    ∃ merged, Kind.merge path left right = .ok merged ∧ merged.Below upper := by
  have hinduction := hright
  induction hinduction generalizing path left upper with
  | @intro right _ _ ih =>
    have hmerge : ∀ path (a b c : Node), a.kind.Regular → b ∈ right.inner →
        a.kind.Below c.kind → b.kind.Below c.kind →
          ∃ merged, Node.merge path a b = .ok merged ∧ merged.kind.Below c.kind := by
      intro path a b c ha hb hbelow hbelow'
      rw [Node.merge_eq]
      split
      · exact ⟨a, rfl, hbelow⟩
      · obtain ⟨kind, hkind, hkindBelow⟩ := ih b hb ha (hright.inside hb) hbelow hbelow'
        exact ⟨_, Failure.map_eq_ok.2 ⟨kind, hkind, rfl⟩, hkindBelow⟩
    have hlower := hleft
    have hself := hupper
    cases hupper with
    | object =>
      cases hleft with
      | unconstrained => exact ⟨_, merge_unconstrained _, hself⟩
      | object =>
        obtain ⟨schema, hschema, hbelow⟩ := ObjectSchema.exists_merge_of_below hright.here
          (below_object_iff.1 hlower) (below_object_iff.1 hself)
          fun path a b c ha hb ↦ hmerge path a b c (hregular.inside ha) hb
        exact ⟨.object schema, Failure.map_eq_ok.2 ⟨schema, hschema, rfl⟩,
          below_object_iff.2 hbelow⟩
    | single h =>
      cases hleft with
      | unconstrained => exact ⟨_, merge_unconstrained _, hself⟩
      | single h' =>
        obtain ⟨item, hitem, hbelow⟩ := hmerge (Pointer.child path "items") _ _ _
          (hregular.inside (.head _)) (.head _) h' h
        exact ⟨_, Failure.map_eq_ok.2 ⟨item, hitem, rfl⟩, .single hbelow⟩
    | _ => exact exists_mergeScalars_of_below hregular hright hleft hself nofun nofun

/-! ## Lists of kinds -/

theorem below_foldlM {start : Kind} {kinds : List Kind} (hstart : start.Comparable)
    (hkinds : ∀ kind ∈ kinds, kind.Comparable)
    (h : kinds.foldlM (Kind.merge path) start = .ok merged) :
    start.Below merged ∧ ∀ kind ∈ kinds, kind.Below merged := by
  induction kinds generalizing start with
  | nil =>
    cases h
    exact ⟨hstart.below_self, nofun⟩
  | cons kind rest ih =>
    obtain ⟨hkind, hrest⟩ := List.forall_mem_cons.1 hkinds
    rw [List.foldlM_cons] at h
    obtain ⟨next, hnext, hlast⟩ := Failure.bind_eq_ok.1 h
    obtain ⟨hstartBelow, hkindBelow⟩ := below_merge hstart hkind hnext
    obtain ⟨hnextBelow, hrestBelow⟩ := ih (hstart.merge hkind hnext) hrest hlast
    exact ⟨hstartBelow.trans hstart.regular hnextBelow,
      List.forall_mem_cons.2 ⟨hkindBelow.trans hkind.regular hnextBelow, hrestBelow⟩⟩

theorem exists_foldlM_of_below {start : Kind} {kinds : List Kind} (hregular : start.Regular)
    (hstart : start.Below upper) (hkinds : ∀ kind ∈ kinds, kind.Regular ∧ kind.Below upper) :
    ∃ merged, kinds.foldlM (Kind.merge path) start = .ok merged ∧ merged.Below upper := by
  induction kinds generalizing start with
  | nil => exact ⟨start, rfl, hstart⟩
  | cons kind rest ih =>
    obtain ⟨⟨hkind, hkindBelow⟩, hrest⟩ := List.forall_mem_cons.1 hkinds
    have hstep : ∃ next, Kind.merge path start kind = .ok next ∧ next.Below upper :=
      exists_merge_of_below hregular hkind hstart hkindBelow
    obtain ⟨next, hnext, hnextBelow⟩ := hstep
    obtain ⟨merged, hmerged, hbelow⟩ := ih (hregular.merge hkind hnext) hnextBelow hrest
    exact ⟨merged, Failure.bind_eq_ok.2 ⟨next, hnext, hmerged⟩, hbelow⟩

theorem comparable_unconstrained : Kind.unconstrained.Comparable :=
  ⟨.of_leaf trivial rfl, .of_leaf trivial rfl⟩

/-- Kinds can be merged exactly if there is something that demands what all of them demand, and
they merge into the least such kind. -/
theorem mergeKinds_eq_ok_of_below (path : String) {kinds : List Kind}
    (hkinds : ∀ kind ∈ kinds, kind.Comparable) :
    (∀ upper, (∀ kind ∈ kinds, kind.Below upper) →
      ∃ merged, mergeKinds path kinds = .ok merged ∧ merged.Below upper) ∧
    ∀ merged, mergeKinds path kinds = .ok merged → ∀ kind ∈ kinds, kind.Below merged :=
  ⟨fun upper hupper ↦ exists_foldlM_of_below comparable_unconstrained.regular (.unconstrained upper)
    fun kind hkind ↦ ⟨(hkinds kind hkind).regular, hupper kind hkind⟩,
    fun _ hmerged ↦ (below_foldlM comparable_unconstrained hkinds hmerged).2⟩

end Kind

/-- The kinds that regular members are flattened to can be merged in every order or in none, if they
have no compositions inside and no minimum on a text or a constant. What they merge into is the same
up to the order of what is listed, the titles and descriptions, and the signs of zeros. -/
theorem mergeKinds_perm {library : Library} {document : Document} {members : List Node}
    {budget position : Nat} {place : String} {session session' : Session}
    {kinds others : List Kind} (hlibrary : library.IsRegular document)
    (hmembers : ∀ member ∈ members, member.kind.Regular)
    (hflat : Flatten.members (Flatten.collect library budget) document place position members
      session = some (.ok kinds, session'))
    (hplain : ∀ kind ∈ kinds, kind.Throughout Kind.IsPlain) (hperm : kinds.Perm others)
    (path : String) :
    ((∃ merged, mergeKinds path kinds = .ok merged) ↔
      ∃ merged, mergeKinds path others = .ok merged) ∧
    ∀ merged merged', mergeKinds path kinds = .ok merged → mergeKinds path others = .ok merged' →
      merged.Alike merged' := by
  have hregular := hlibrary.members hmembers hflat
  have hkinds : ∀ kind ∈ kinds, kind.Comparable := fun kind hkind ↦
    ⟨hplain kind hkind, hregular kind hkind⟩
  have hothers : ∀ kind ∈ others, kind.Comparable := fun kind hkind ↦
    hkinds kind (hperm.mem_iff.2 hkind)
  obtain ⟨hleast, hupper⟩ := Kind.mergeKinds_eq_ok_of_below path hkinds
  obtain ⟨hleast', hupper'⟩ := Kind.mergeKinds_eq_ok_of_below path hothers
  have hforth : ∀ merged, mergeKinds path kinds = .ok merged →
      ∃ merged', mergeKinds path others = .ok merged' ∧ merged'.Below merged :=
    fun merged h ↦ hleast' merged fun kind hkind ↦ hupper merged h kind (hperm.mem_iff.2 hkind)
  have hback : ∀ merged', mergeKinds path others = .ok merged' →
      ∃ merged, mergeKinds path kinds = .ok merged ∧ merged.Below merged' :=
    fun merged' h ↦ hleast merged' fun kind hkind ↦ hupper' merged' h kind (hperm.mem_iff.1 hkind)
  refine ⟨⟨?_, ?_⟩, fun merged merged' h h' ↦ ?_⟩
  · rintro ⟨merged, h⟩
    obtain ⟨merged', h', -⟩ := hforth merged h
    exact ⟨merged', h'⟩
  · rintro ⟨merged', h'⟩
    obtain ⟨merged, h, -⟩ := hback merged' h'
    exact ⟨merged, h⟩
  · obtain ⟨_, hsecond, hbelow⟩ := hforth merged h
    obtain ⟨_, hfirst, hbelow'⟩ := hback merged' h'
    cases h.symm.trans hfirst
    cases h'.symm.trans hsecond
    exact hbelow'.antisymm hbelow

namespace Panel

/-- An object with one property. -/
def having (name : String) (kind : Kind) : Kind :=
  .object (.mk (some [(name, .ofKind kind)]) none none false)

theorem throughout_having {property : Kind → Prop} {name : String} {kind : Kind}
    (here : property (having name kind)) (h : kind.Throughout property) :
    (having name kind).Throughout property :=
  .intro here (List.forall_mem_singleton.2 h)

/-- A mode that is a text for one member, and one of some cases for the others. -/
def kinds : List Kind := [
  having "panel" (having "mode" (.primitive .string none)),
  having "panel" (having "mode" (.enumeration ["day", "night"])),
  having "panel" (having "mode" (.enumeration ["dawn", "day"]))]

theorem throughout_kinds {property : Kind → Prop}
    (hobject : ∀ name kind, property (having name kind))
    (htext : property (.primitive .string none))
    (hcases : ∀ values, property (.enumeration values)) :
    ∀ kind ∈ kinds, kind.Throughout property := by
  have hpanel : ∀ kind : Kind, kind.Throughout property →
      (having "panel" (having "mode" kind)).Throughout property := fun _ h ↦
    throughout_having (hobject _ _) (throughout_having (hobject _ _) h)
  rintro kind (_ | ⟨_, _ | ⟨_, _ | ⟨_, ⟨⟩⟩⟩⟩)
  · exact hpanel _ (.of_leaf htext rfl)
  · exact hpanel _ (.of_leaf (hcases _) rfl)
  · exact hpanel _ (.of_leaf (hcases _) rfl)

/-- The panels can be merged in both orders, with the same cases. -/
theorem kinds_merge_in_both_orders :
    ∃ merged merged', mergeKinds "Lantern#/s" kinds = .ok merged ∧
      mergeKinds "Lantern#/s" kinds.reverse = .ok merged' ∧ merged.Alike merged' := by
  have hflat : Flatten.members (Flatten.collect {} 1) Lantern.lantern "Lantern#/s/allOf" 0
      (kinds.map .ofKind) {} = some (.ok kinds, {}) := rfl
  have hregular : ∀ kind ∈ kinds, kind.Regular :=
    throughout_kinds (fun _ _ ↦ List.nodup_singleton _) trivial fun _ ↦ trivial
  have hplain : ∀ kind ∈ kinds, kind.Throughout Kind.IsPlain :=
    throughout_kinds (fun _ _ ↦ trivial) rfl fun _ ↦ trivial
  have hlibrary : ({} : Library).IsRegular Lantern.lantern := ⟨.null, nofun⟩
  obtain ⟨hsuccess, halike⟩ := mergeKinds_perm hlibrary (List.forall_mem_map.2 hregular) hflat
    hplain kinds.reverse_perm.symm "Lantern#/s"
  obtain ⟨merged, hmerged⟩ : ∃ merged, mergeKinds "Lantern#/s" kinds = .ok merged := ⟨_, rfl⟩
  obtain ⟨merged', hmerged'⟩ := hsuccess.1 ⟨merged, hmerged⟩
  exact ⟨merged, merged', hmerged, hmerged', halike _ _ hmerged hmerged'⟩

end Panel

namespace SignedZeros

def positive : Kind := .constant (.number (.double (.zero false))) none

def negative : Kind := .constant (.number (.double (.zero true))) none

/-- Constants that are zeros of both signs are the same, and the first one is kept. -/
theorem first_zero_is_kept :
    Flatten.members (Flatten.collect {} 1) Lantern.lantern "Lantern#/s/allOf" 0
        [.ofKind positive, .ofKind negative] {} = some (.ok [positive, negative], {}) ∧
      (∀ kind ∈ [positive, negative], kind.Throughout Kind.IsPlain) ∧
      [positive, negative].Perm [negative, positive] ∧
      mergeKinds "Lantern#/s" [positive, negative] = .ok positive ∧
      mergeKinds "Lantern#/s" [negative, positive] = .ok negative ∧ positive ≠ negative := by
  have hplain : ∀ kind ∈ [positive, negative], kind.Throughout Kind.IsPlain :=
    List.forall_mem_cons.2 ⟨.of_leaf rfl rfl, List.forall_mem_singleton.2 (.of_leaf rfl rfl)⟩
  exact ⟨rfl, hplain, .swap _ _ _, rfl, rfl, nofun⟩

end SignedZeros

end SchemaBindings
