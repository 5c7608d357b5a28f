import SchemaBindings.Binding.Native
import SchemaBindings.Binding.Wire
import SchemaBindings.Proofs.Faults
import SchemaBindings.Proofs.Mapping

/-!
# Relations between mappings

Mappings of one schema are compared in several ways: with less and with more budget, now and a
second time, or by what each of them does to its session. All of these are relations that are kept
by the operations that mappings are built with, and such a relation holds of the mappings
themselves. Compositions and both mappers are gone through for it here, once; what a single relation
says has to be shown of the operations only.
-/

namespace SchemaBindings

namespace Mapping

variable {α β : Type}

/-- A relation that is kept by sequencing and by following references. The second mapping may be
given some more budget than the first one, so it may go on where the first one is exhausted. -/
structure Relation where
  holds : ∀ {α : Type}, Mapping α → Mapping α → Prop
  more : Nat
  exhausted : ∀ {α : Type} (mapping : Nat → Mapping α), mapping 0 = Mapping.exhausted →
    holds Mapping.exhausted (mapping more)
  faults : ∀ {α : Type} {result : Except Failure α}, Faults result →
    holds (ofExcept result) (ofExcept result)
  bind : ∀ {α β : Type} {first second : Mapping α} {next next' : α → Mapping β},
    holds first second → (∀ value, holds (next value) (next' value)) →
      holds (first >>= next) (second >>= next')
  following : ∀ {α : Type} {first second : Mapping α}, holds first second →
    ∀ key path, holds (following key path first) (following key path second)

namespace Relation

variable (R : Relation)

theorem pure (value : α) : R.holds (Pure.pure value) (Pure.pure value) :=
  R.faults (faults_ok value)

theorem fault {failure : Failure} (h : failure.isFault) (hcyclic : failure.isCyclic = false) :
    R.holds (fail failure : Mapping α) (fail failure) :=
  R.faults (faults_error h hcyclic)

theorem foldlM {first second : β → α → Mapping β}
    (h : ∀ soFar x, R.holds (first soFar x) (second soFar x)) (xs : List α) (start : β) :
    R.holds (xs.foldlM first start) (xs.foldlM second start) := by
  induction xs generalizing start with
  | nil => exact R.pure start
  | cons x rest ih =>
    rw [List.foldlM_cons, List.foldlM_cons]
    exact R.bind (h start x) ih

end Relation

/-- A relation that is also kept by claims, by warnings and by attempts, after which failures that
cannot be recovered from are passed on. It may depend on the place of a schema and on the two scopes
that the mappings of the schema are asked under. -/
structure MapperRelation (library : Library) extends Relation where
  places : Document → String → String → String → Prop
  child : ∀ {document path scope scope'}, places document path scope scope' →
    ∀ step, places document (Pointer.child path step) scope scope'
  inside : ∀ {document path scope scope'}, places document path scope scope' →
    ∀ stem, places document path stem stem
  target : ∀ {document path scope scope'}, places document path scope scope' →
    ∀ {reference place target}, library.resolve document reference place = .ok target →
      places target.owner target.path "" ""
  ofExcept : ∀ {α : Type} (result : Except Failure α), holds (ofExcept result) (ofExcept result)
  warn : holds warn warn
  claim : ∀ {document path scope scope'}, places document path scope scope' → ∀ kind label,
    holds (claim library document path kind (Names.nested scope label))
      (claim library document path kind (Names.nested scope' label))
  attempt_bind : ∀ {α β : Type} {first second : Mapping α}
    {next next' : Except Failure α → Mapping β}, holds first second →
      (∀ result, holds (next result) (next' result)) →
      (∀ failure, failure.isRecoverable = false → next (.error failure) = fail failure) →
        holds (attempt first >>= next) (attempt second >>= next')

namespace MapperRelation

variable {library : Library} (R : MapperRelation library)

theorem fail (failure : Failure) : R.holds (fail failure : Mapping α) (fail failure) :=
  R.ofExcept (.error failure)

theorem ofExcept_bind {result : Except Failure α} {next next' : α → Mapping β}
    (h : ∀ value, result = .ok value → R.holds (next value) (next' value)) :
    R.holds (Mapping.ofExcept result >>= next) (Mapping.ofExcept result >>= next') := by
  cases result with
  | ok value => exact h value rfl
  | error failure => exact R.fail failure

/-- A failure that is passed over, if it may be. -/
theorem ite_warn (failure : Failure) (value : α) :
    R.holds
      (if failure.isRecoverable then Mapping.warn >>= fun _ ↦ pure value else Mapping.fail failure)
      (if failure.isRecoverable then Mapping.warn >>= fun _ ↦ pure value
        else Mapping.fail failure) := by
  split
  · exact R.bind R.warn fun _ ↦ R.pure value
  · exact R.fail failure

/-- Mappers are related if their mappings of each schema are. -/
def Relates (first second : Document → Node → Request → Mapping α) : Prop :=
  ∀ {document node name path scope scope'}, R.places document path scope scope' →
    R.holds (first document node ⟨name, scope, path⟩) (second document node ⟨name, scope', path⟩)

end MapperRelation

end Mapping

open Mapping

/-! ## Compositions -/

namespace Flatten

variable (R : Relation)

theorem members_related (first second : Document → String → Node → Mapping (List Kind))
    (h : ∀ document path node, R.holds (first document path node) (second document path node))
    (document : Document) (path : String) (position : Nat) (nodes : List Node) :
    R.holds (members first document path position nodes)
      (members second document path position nodes) := by
  induction nodes generalizing position with
  | nil => exact R.pure []
  | cons node rest ih =>
    exact R.bind (h _ _ _) fun _ ↦ R.bind (ih (position + 1)) fun _ ↦ R.pure _

theorem collect_related (library : Library) (budget : Nat) (document : Document) (path : String)
    (node : Node) :
    R.holds (collect library budget document path node)
      (collect library (R.more + budget) document path node) := by
  induction budget generalizing document path node with
  | zero =>
    exact R.exhausted (fun budget ↦ collect library budget document path node) rfl
  | succ budget ih =>
    obtain ⟨title, description, kind⟩ := node
    cases kind with
    | reference target =>
      exact R.bind (R.faults (library.resolve_faults _ _ _)) fun target ↦
        R.following (ih _ _ _) _ _
    | allOf nested => exact members_related R _ _ ih document _ 0 nested
    | oneOf => exact R.fault rfl rfl
    | anyOf => exact R.fault rfl rfl
    | _ => exact R.pure _

end Flatten

theorem mergeAllOf_related (R : Relation) (library : Library) (budget : Nat) (document : Document)
    (outer : Node) (members : List Node) (path : String) :
    R.holds (mergeAllOf library budget document outer members path)
      (mergeAllOf library (R.more + budget) document outer members path) :=
  R.bind (Flatten.members_related R _ _ (Flatten.collect_related R library budget) _ _ _ _) fun _ ↦
    R.bind (R.faults (mergeKinds_faults _ _)) fun _ ↦ R.pure _

variable {cx : Context} (R : MapperRelation cx.library) {document : Document}
  {name path scope scope' : String}

/-! ## Native types -/

namespace Native

theorem constant_related (value : Json) (minimum : Option Double) (label : String) :
    R.holds (constant cx value minimum label path) (constant cx value minimum label path) := by
  unfold constant
  split
  · exact R.pure _
  · exact R.fail _

variable {first second : Mapper} (h : R.Relates first second)

include h

theorem array_related (hplace : R.places document path scope scope') (items : Items)
    (label : String) :
    R.holds (array cx first document items label ⟨name, scope, path⟩)
      (array cx second document items label ⟨name, scope', path⟩) :=
  R.bind (R.ofExcept _) fun _ ↦ R.bind (h (R.child hplace _)) fun _ ↦
    R.bind (R.claim hplace _ _) fun _ ↦ R.bind (R.ofExcept _) fun _ ↦
    R.bind (R.ofExcept _) fun _ ↦ R.pure _

theorem property_related (hplace : R.places document path scope scope') (parent : Parent)
    (isOptional : Bool) (member : String) (node : Node) :
    R.holds (property cx first document parent isOptional member node ⟨name, scope, path⟩)
      (property cx second document parent isOptional member node ⟨name, scope', path⟩) := by
  obtain ⟨title, description, kind⟩ := node
  cases kind with
  | array items =>
    exact R.bind (R.ofExcept _) fun _ ↦ R.bind (h (R.child hplace _)) fun _ ↦ R.pure _
  | _ => exact R.bind (h hplace) fun _ ↦ R.pure _

theorem addProperty_related (hplace : R.places document path scope scope') (parent : Parent)
    (schema : ObjectSchema) (soFar : Gathered) (entry : String × Node) :
    R.holds (addProperty cx first document parent schema ⟨name, scope, path⟩ soFar entry)
      (addProperty cx second document parent schema ⟨name, scope', path⟩ soFar entry) := by
  have hmember := R.inside (R.child (R.child hplace "properties") entry.1) parent.stem
  refine R.attempt_bind (property_related R h hmember _ _ _ _) (fun mapped ↦ ?_)
    fun failure hfailure ↦ if_neg (by simp [hfailure])
  cases mapped with
  | ok value => exact R.bind (R.ofExcept _) fun _ ↦ R.pure _
  | error failure => exact R.ite_warn failure _

theorem object_related (hplace : R.places document path scope scope') (schema : ObjectSchema)
    (label : String) :
    R.holds (object cx first document schema label ⟨name, scope, path⟩)
      (object cx second document schema label ⟨name, scope', path⟩) :=
  R.bind (R.claim hplace _ _) fun _ ↦
    R.bind (R.foldlM (addProperty_related R h hplace _ _) _ _) fun _ ↦
    R.bind (R.ofExcept _) fun _ ↦ R.pure _

theorem dictionary_related (hplace : R.places document path scope scope') (additional : Node)
    (label : String) :
    R.holds (dictionary cx first document additional label ⟨name, scope, path⟩)
      (dictionary cx second document additional label ⟨name, scope', path⟩) :=
  R.bind (R.claim hplace _ _) fun _ ↦ R.bind (h (R.inside (R.child hplace _) _)) fun _ ↦
    R.bind (R.ofExcept _) fun _ ↦ R.bind (R.ofExcept _) fun _ ↦ R.pure _

theorem reference_related (hplace : R.places document path scope scope') (target : String) :
    R.holds (reference cx first document target ⟨name, scope, path⟩)
      (reference cx second document target ⟨name, scope', path⟩) :=
  R.ofExcept_bind fun _ htarget ↦
    R.bind (R.following (h (R.target hplace htarget)) _ _) fun _ ↦ R.pure _

theorem objectLike_related (hplace : R.places document path scope scope') (schema : ObjectSchema)
    (label : String) :
    R.holds (objectLike cx first document schema label ⟨name, scope, path⟩)
      (objectLike cx second document schema label ⟨name, scope', path⟩) := by
  unfold objectLike
  split
  · exact object_related R h hplace schema label
  · split
    · exact dictionary_related R h hplace _ label
    · split
      · exact R.fail _
      · exact R.pure _

theorem step_related {merge merge' : Document → Node → List Node → String → Mapping Node}
    (hmerge : ∀ document node members path,
      R.holds (merge document node members path) (merge' document node members path))
    (hplace : R.places document path scope scope') (node : Node) :
    R.holds (step cx merge first document node ⟨name, scope, path⟩)
      (step cx merge' second document node ⟨name, scope', path⟩) := by
  obtain ⟨title, description, kind⟩ := node
  cases kind with
  | reference target =>
    change R.holds (reference cx first document target ⟨name, scope, path⟩)
      (reference cx second document target ⟨name, scope', path⟩)
    exact reference_related R h hplace target
  | constant value minimum =>
    refine R.bind (R.ofExcept _) fun label ↦ ?_
    change R.holds (constant cx value minimum label path) (constant cx value minimum label path)
    exact constant_related R value minimum label
  | enumeration values =>
    exact R.bind (R.ofExcept _) fun _ ↦ R.bind (R.claim hplace _ _) fun _ ↦ R.pure _
  | object schema =>
    exact R.bind (R.ofExcept _) fun _ ↦ objectLike_related R h hplace schema _
  | array items => exact R.bind (R.ofExcept _) fun _ ↦ array_related R h hplace items _
  | allOf members =>
    exact R.bind (R.ofExcept _) fun _ ↦ R.bind (hmerge _ _ _ _) fun _ ↦ h hplace
  | primitive => exact R.bind (R.ofExcept _) fun _ ↦ R.pure _
  | _ => exact R.bind (R.ofExcept _) fun _ ↦ R.fail _

omit h

theorem map_related (budget : Nat) (hplace : R.places document path scope scope') (node : Node) :
    R.holds (map cx budget document node ⟨name, scope, path⟩)
      (map cx (R.more + budget) document node ⟨name, scope', path⟩) := by
  induction budget generalizing document node name path scope scope' with
  | zero =>
    exact R.exhausted (fun budget ↦ map cx budget document node ⟨name, scope', path⟩) rfl
  | succ budget ih =>
    exact step_related R (fun hplace ↦ ih hplace _)
      (fun _ _ _ _ ↦ mergeAllOf_related _ _ _ _ _ _ _) hplace node

end Native

/-! ## Wire types -/

namespace Wire

theorem constant_related (value : Json) (minimum : Option Double) :
    R.holds (constant cx value minimum path) (constant cx value minimum path) := by
  unfold constant
  split
  · exact R.pure _
  · exact R.fail _

variable {first second : Mapper} (h : R.Relates first second)

include h

theorem addMember_related (hplace : R.places document path scope scope') (stem : String)
    (soFar : Gathered) (entry : String × Node) :
    R.holds (addMember first document stem ⟨name, scope, path⟩ soFar entry)
      (addMember second document stem ⟨name, scope', path⟩ soFar entry) := by
  have hmember := R.inside (R.child (R.child hplace "properties") entry.1) stem
  refine R.attempt_bind (h hmember) (fun mapped ↦ ?_)
    fun failure hfailure ↦ if_neg (by simp [hfailure])
  cases mapped with
  | ok value => exact R.bind (R.ofExcept _) fun _ ↦ R.pure _
  | error failure => exact R.ite_warn failure _

theorem objectLike_related (hplace : R.places document path scope scope') (schema : ObjectSchema)
    (label : String) :
    R.holds (objectLike cx first document schema label ⟨name, scope, path⟩)
      (objectLike cx second document schema label ⟨name, scope', path⟩) := by
  unfold objectLike
  split
  · exact R.bind (R.claim hplace _ _) fun stem ↦
      R.bind (R.foldlM (addMember_related R h hplace stem) _ _) fun _ ↦
      R.bind (R.ofExcept _) fun _ ↦ R.pure _
  · split
    · exact R.bind (R.claim hplace _ _) fun _ ↦ R.bind (h (R.inside (R.child hplace _) _)) fun _ ↦
        R.bind (R.ofExcept _) fun _ ↦ R.pure _
    · split
      · exact R.fail _
      · exact R.pure _

theorem step_related {merge merge' : Document → Node → List Node → String → Mapping Node}
    (hmerge : ∀ document node members path,
      R.holds (merge document node members path) (merge' document node members path))
    (hplace : R.places document path scope scope') (node : Node) :
    R.holds (step cx merge first document node ⟨name, scope, path⟩)
      (step cx merge' second document node ⟨name, scope', path⟩) := by
  obtain ⟨title, description, kind⟩ := node
  cases kind with
  | reference target =>
    exact R.ofExcept_bind fun _ htarget ↦
      R.bind (R.following (h (R.target hplace htarget)) _ _) fun _ ↦ R.pure _
  | constant value minimum =>
    refine R.bind (R.ofExcept _) fun _ ↦ ?_
    change R.holds (constant cx value minimum path) (constant cx value minimum path)
    exact constant_related R value minimum
  | enumeration values =>
    exact R.bind (R.ofExcept _) fun _ ↦ R.bind (R.claim hplace _ _) fun _ ↦ R.pure _
  | object schema =>
    exact R.bind (R.ofExcept _) fun _ ↦ objectLike_related R h hplace schema _
  | array items =>
    exact R.bind (R.ofExcept _) fun _ ↦ R.bind (R.ofExcept _) fun _ ↦
      R.bind (h (R.child hplace _)) fun _ ↦ R.bind (R.ofExcept _) fun _ ↦ R.pure _
  | allOf members =>
    exact R.bind (R.ofExcept _) fun _ ↦ R.bind (hmerge _ _ _ _) fun _ ↦ h hplace
  | primitive => exact R.bind (R.ofExcept _) fun _ ↦ R.pure _
  | _ => exact R.bind (R.ofExcept _) fun _ ↦ R.fail _

omit h

theorem map_related (budget : Nat) (hplace : R.places document path scope scope') (node : Node) :
    R.holds (map cx budget document node ⟨name, scope, path⟩)
      (map cx (R.more + budget) document node ⟨name, scope', path⟩) := by
  induction budget generalizing document node name path scope scope' with
  | zero =>
    exact R.exhausted (fun budget ↦ map cx budget document node ⟨name, scope', path⟩) rfl
  | succ budget ih =>
    exact step_related R (fun hplace ↦ ih hplace _)
      (fun _ _ _ _ ↦ mergeAllOf_related _ _ _ _ _ _ _) hplace node

end Wire

end SchemaBindings
