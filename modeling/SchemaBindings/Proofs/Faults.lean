import SchemaBindings.Binding.Request
import SchemaBindings.Proofs.Outputs
import SchemaBindings.Proofs.Texts
import SchemaBindings.Schema.Merge

/-!
# Faults of schemas

Most failures are faults: neither collisions of names, which come up when code is put together,
nor types that cannot be determined, which are left out. A schema that cannot be read, a reference
that cannot be resolved and a composition that cannot be merged fail by a fault. A label and an
element can also be undetermined, but do not collide. None of these fail by a cycle, which is found
only where a reference is followed.
-/

namespace SchemaBindings

open Schema

variable {α β : Type}

def Failure.isCyclic : Failure → Bool
  | .cyclicReference .. => true
  | _ => false

theorem Failure.isRecoverable_of_isCyclic {failure : Failure} (h : failure.isCyclic) :
    failure.isRecoverable = false := by
  cases failure <;> first | rfl | cases h

def Failure.isFault (failure : Failure) : Bool := !failure.isCollision && !failure.isRecoverable

theorem Failure.isRecoverable_of_isFault {failure : Failure} (h : failure.isFault) :
    failure.isRecoverable = false := by
  cases hrecoverable : failure.isRecoverable with
  | false => rfl
  | true => simp [isFault, hrecoverable] at h

/-- The result fails by a fault if it fails, and not by a cycle: no references are followed. -/
def Faults (result : Except Failure α) : Prop :=
  ∀ failure, result = .error failure → failure.isFault ∧ failure.isCyclic = false

theorem faults_ok (value : α) : Faults (.ok value) := nofun

theorem faults_error {failure : Failure} (h : failure.isFault)
    (hcyclic : failure.isCyclic = false) :
    Faults (.error failure : Except Failure α) := by
  rintro _ ⟨⟩
  exact ⟨h, hcyclic⟩

/-- A failure that is passed on. -/
theorem Faults.error {failure : Failure} (h : Faults (.error failure : Except Failure α)) :
    Faults (.error failure : Except Failure β) :=
  faults_error (h failure rfl).1 (h failure rfl).2

theorem Faults.map {result : Except Failure α} (h : Faults result) (f : α → β) :
    Faults (result.map f) := by
  cases result with
  | ok value => exact faults_ok (f value)
  | error failure => exact h.error

theorem Faults.bind {result : Except Failure α} {next : α → Except Failure β} (h : Faults result)
    (hnext : ∀ value, Faults (next value)) : Faults (result >>= next) := by
  cases result with
  | ok value => exact hnext value
  | error failure => exact h.error

theorem faults_foldlM {step : β → α → Except Failure β} (h : ∀ soFar x, Faults (step soFar x))
    (xs : List α) (start : β) : Faults (xs.foldlM step start) := by
  induction xs generalizing start with
  | nil => exact faults_ok start
  | cons x rest ih =>
    rw [List.foldlM_cons]
    exact (h start x).bind ih

/-! ## Reading -/

namespace Schema

theorem textCases_faults (path : String) (values : List Json) :
    Faults (textCases path values) := by
  induction values with
  | nil => exact faults_ok []
  | cons value rest ih =>
    cases value with
    | string text => exact Faults.map ih (text :: ·)
    | _ => exact faults_error rfl rfl

theorem typeKeyword_faults (path : String) (entries : Entries) :
    Faults (typeKeyword path entries) := by
  unfold typeKeyword
  split
  · exact faults_ok _
  · exact faults_ok _
  · split
    · exact faults_ok _
    · exact faults_ok _
    · exact faults_error rfl rfl
  · exact faults_error rfl rfl

theorem shapeForm_faults (path : String) (type : Option String) (entries : Entries) :
    Faults (shapeForm path type entries) := by
  unfold shapeForm
  split
  · exact faults_ok _
  · split
    · exact faults_ok _
    · exact faults_error rfl rfl
    · split
      · exact faults_ok _
      · exact faults_ok _

theorem form_faults (path : String) (entries : Entries) :
    Faults (form path entries) := by
  unfold form
  split
  · exact faults_ok _
  · exact faults_error rfl rfl
  · split
    · exact faults_ok _
    · cases htype : typeKeyword path entries with
      | ok type =>
        change Faults (typedForm path type entries)
        unfold typedForm
        split
        · exact Faults.map (textCases_faults path _) _
        · exact shapeForm_faults path type entries
      | error failure =>
        have htyped := typeKeyword_faults path entries
        rw [htype] at htyped
        exact htyped.error

end Schema

mutual

theorem Node.read_faults (path : String) (value : Json) :
    Faults (Node.read path value) := by
  cases value with
  | object entries =>
    cases hform : form path entries with
    | error failure =>
      have hplain := form_faults path entries
      rw [hform] at hplain
      rw [Node.read_object_error hform]
      exact hplain.error
    | ok f =>
      rw [Node.read_object hform]
      exact Faults.map (Kind.ofForm_faults path f) _
  | bool _ =>
    rw [Node.read]
    exact faults_ok _
  | _ =>
    unfold Node.read
    exact faults_error rfl rfl
  termination_by 3 * sizeOf value
  decreasing_by
    subst_vars
    have := size_form_lt hform
    simp only [Json.object.sizeOf_spec]
    omega

theorem Kind.ofForm_faults (path : String) (f : Form) : Faults (Kind.ofForm path f) := by
  cases f with
  | tuple items =>
    rw [Kind.ofForm]
    exact Faults.bind (readList_faults _ 0 items) fun _ ↦ faults_ok _
  | single item =>
    rw [Kind.ofForm]
    exact Faults.bind (Node.read_faults _ item) fun _ ↦ faults_ok _
  | composed composition members =>
    rw [Kind.ofForm]
    exact Faults.bind (readList_faults _ 0 members) fun _ ↦ faults_ok _
  | object properties required additional pattern =>
    rw [Kind.ofForm]
    exact Faults.bind (readProperties_faults _ properties) fun _ ↦
      Faults.bind (readAdditional_faults _ additional) fun _ ↦ faults_ok _
  | _ =>
    rw [Kind.ofForm]
    exact faults_ok _
  termination_by 3 * f.size + 2
  decreasing_by
    all_goals
      subst_vars
      simp only [Form.size]
      omega

theorem readAdditional_faults (path : String) (additional : Option Json) :
    Faults (readAdditional path additional) := by
  cases additional with
  | none =>
    rw [readAdditional]
    exact faults_ok _
  | some value =>
    rw [readAdditional]
    exact Faults.map (Node.read_faults path value) _
  termination_by 3 * (additional.map sizeOf).getD 0 + 1
  decreasing_by
    subst_vars
    exact Nat.lt_succ_self _

theorem readProperties_faults (path : String) (properties : Option Entries) :
    Faults (readProperties path properties) := by
  cases properties with
  | none =>
    rw [readProperties]
    exact faults_ok _
  | some entries =>
    rw [readProperties]
    exact Faults.map (readEntries_faults path entries) _
  termination_by 3 * (properties.map sizeOf).getD 0 + 1
  decreasing_by
    subst_vars
    exact Nat.lt_succ_self _

theorem readEntries_faults (path : String) (entries : Entries) :
    Faults (readEntries path entries) := by
  cases entries with
  | nil =>
    rw [readEntries]
    exact faults_ok _
  | cons entry rest =>
    rcases hentry : entry with ⟨name, value⟩
    rw [readEntries]
    exact Faults.bind (Node.read_faults _ value) fun _ ↦
      Faults.bind (readEntries_faults path rest) fun _ ↦ faults_ok _
  termination_by 3 * sizeOf entries
  decreasing_by
    · subst_vars; simp only [List.cons.sizeOf_spec, Prod.mk.sizeOf_spec]; omega
    · subst_vars; simp only [List.cons.sizeOf_spec]; omega

theorem readList_faults (path : String) (position : Nat) (items : List Json) :
    Faults (readList path position items) := by
  cases items with
  | nil =>
    rw [readList]
    exact faults_ok _
  | cons item rest =>
    rw [readList]
    exact Faults.bind (Node.read_faults _ item) fun _ ↦
      Faults.bind (readList_faults path (position + 1) rest) fun _ ↦
        faults_ok _
  termination_by 3 * sizeOf items
  decreasing_by
    · subst_vars; simp only [List.cons.sizeOf_spec]; omega
    · subst_vars; simp only [List.cons.sizeOf_spec]; omega

end

theorem Library.resolve_faults (library : Library) (document : Document)
    (reference place : String) : Faults (library.resolve document reference place) := by
  unfold resolve
  generalize splitReference reference = split
  obtain ⟨uri, fragment⟩ := split
  dsimp only
  split
  · exact faults_error rfl rfl
  · split
    · exact faults_error rfl rfl
    · exact Faults.map (Node.read_faults _ _) _

theorem Items.element_fails {items : Items} {path : String} {failure : Failure}
    (h : items.element path = .error failure) :
    failure.isCollision = false ∧ failure.isCyclic = false := by
  unfold element at h
  split at h
  · cases h
  · cases h
    exact ⟨rfl, rfl⟩
  · split at h <;> cases h
    exact ⟨rfl, rfl⟩

theorem Request.label_fails {request : Request} {node : Node} {failure : Failure}
    (h : request.label node = .error failure) :
    failure.isCollision = false ∧ failure.isCyclic = false := by
  unfold label at h
  split at h
  · cases h
  · split at h <;> cases h
    exact ⟨rfl, rfl⟩

/-! ## Merging -/

theorem mergePrimitives_faults (path : String) (left right : Primitive)
    (leftMinimum rightMinimum : Option Double) :
    Faults (mergePrimitives path left right leftMinimum rightMinimum) := by
  unfold mergePrimitives
  split
  · refine Faults.map ?_ _
    unfold mergeMinimums
    split
    · split
      · exact faults_ok _
      · exact faults_error rfl rfl
    · exact faults_ok _
    · exact faults_ok _
  · exact faults_error rfl rfl

theorem mergeScalars_faults (path : String) (left right : Kind) :
    Faults (mergeScalars path left right) := by
  unfold mergeScalars
  split
  case h_6 => exact mergePrimitives_faults _ _ _ _ _
  all_goals
    try split
    all_goals first
      | exact faults_ok _
      | exact faults_error rfl rfl

mutual

theorem Node.merge_faults (path : String) (left : Node) :
    (right : Node) → Faults (Node.merge path left right)
  | .mk title description kind => by
    rw [Node.merge]
    split
    · exact faults_ok _
    · exact Faults.map (Kind.merge_faults path left.kind kind) _
  termination_by structural x => x

theorem Kind.merge_faults (path : String) (left : Kind) :
    (right : Kind) → Faults (Kind.merge path left right)
  | .object right => by
    obtain ⟨schema, rfl, hobjects⟩ | hscalars := Kind.merge_object path left right
    · rw [hobjects]
      exact Faults.map (ObjectSchema.merge_faults path schema right) _
    · rw [hscalars]
      exact mergeScalars_faults path left _
  | .array (.single right) => by
    obtain ⟨item, rfl, hitems⟩ | hscalars := Kind.merge_single path left right
    · rw [hitems]
      exact Faults.map (Node.merge_faults _ item right) _
    · rw [hscalars]
      exact mergeScalars_faults path left _
  | .array (.tuple _) => mergeScalars_faults path left _
  | .reference _ => mergeScalars_faults path left _
  | .constant .. => mergeScalars_faults path left _
  | .enumeration _ => mergeScalars_faults path left _
  | .allOf _ => mergeScalars_faults path left _
  | .oneOf _ => mergeScalars_faults path left _
  | .anyOf _ => mergeScalars_faults path left _
  | .primitive .. => mergeScalars_faults path left _
  | .unconstrained => mergeScalars_faults path left _
  termination_by structural x => x

theorem ObjectSchema.merge_faults (path : String) (left : ObjectSchema) :
    (right : ObjectSchema) → Faults (ObjectSchema.merge path left right)
  | .mk properties required additional pattern => by
    rw [ObjectSchema.merge]
    exact Faults.bind (mergeMembers_faults _ _ properties) fun _ ↦
      Faults.bind (mergeAdditional_faults _ _ additional) fun _ ↦ faults_ok _
  termination_by structural x => x

theorem mergeMembers_faults (path : String) (left : Option (List (String × Node))) :
    (right : Option (List (String × Node))) → Faults (mergeMembers path left right)
  | none => faults_ok left
  | some right => Faults.map (mergeProperties_faults path _ right) _
  termination_by structural x => x

theorem mergeAdditional_faults (path : String) (left : Option Node) :
    (right : Option Node) → Faults (mergeAdditional path left right)
  | none => faults_ok left
  | some right => by
    cases left with
    | none => exact faults_ok _
    | some left => exact Faults.map (Node.merge_faults path left right) _
  termination_by structural x => x

theorem mergeProperties_faults (path : String) (left : List (String × Node)) :
    (right : List (String × Node)) → Faults (mergeProperties path left right)
  | [] => faults_ok left
  | (name, node) :: rest => by
    rw [mergeProperties]
    split
    case h_1 existing hexisting =>
      have hmerge := Node.merge_faults (Pointer.child path name) existing node
      cases hmerged : Node.merge (Pointer.child path name) existing node with
      | ok merged => exact mergeProperties_faults path _ rest
      | error failure =>
        rw [hmerged] at hmerge
        exact hmerge.error
    case h_2 => exact mergeProperties_faults path _ rest
  termination_by structural x => x

end

theorem mergeKinds_faults (path : String) (kinds : List Kind) :
    Faults (mergeKinds path kinds) :=
  faults_foldlM (fun left right ↦ Kind.merge_faults path left right) kinds _

end SchemaBindings
