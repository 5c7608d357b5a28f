import SchemaBindings.Proofs.Handles
import SchemaBindings.Proofs.Rules
import SchemaBindings.Proofs.Spelling
import SchemaBindings.Proofs.Visits

/-!
# Schemas that have types

Whether the type of a schema can be determined is up to the schema and to what it consists of, not
to the stems that are known or to the references that are being followed. A schema that has a
native type in some session is therefore left out in no other one, on neither side, and nor is what
its type is made from. The properties of an object do not count: those without a type are left out
of it.
-/

namespace SchemaBindings

open Mapping

/-- The type of a schema that is mapped can be determined. -/
def firmRules : Rules where
  holds _ := True
  allows failure := failure.isRecoverable = false
  allows_fault h := Failure.isRecoverable_of_isFault h

theorem Failure.isRecoverable_of_isCollision {failure : Failure} (h : failure.isCollision) :
    failure.isRecoverable = false := by
  cases failure <;> first | rfl | cases h

variable {cx : Context} {v v' : Visit}

namespace Visit

/-- A mapper gives the schema a native type in some session. -/
def HasType (cx : Context) (v : Visit) : Prop :=
  ∃ scope session type session',
    Native.Ends cx v.document v.node (v.request scope) session (.ok type) session'

/-- The type of a schema is made from the type of the other one: its target, its elements or
values, or what it merges into. -/
def MadeFrom (library : Library) (v v' : Visit) : Prop :=
  v.Comes library v' ∧ ∀ schema, v.node.kind = .object schema → schema.hasProperties = false

section

variable {library : Library}

theorem madeFrom_target {reference : String} {target : Target}
    (hkind : v.node.kind = .reference reference)
    (htarget : library.resolve v.document reference v.path = .ok target) :
    v.MadeFrom library (.ofTarget target) :=
  ⟨.target hkind htarget, fun _ hobject ↦ by rw [hkind] at hobject; cases hobject⟩

theorem madeFrom_element {items : Items} {item : Node} {label : String}
    (hkind : v.node.kind = .array items) (hlabel : v.label = .ok label)
    (hitem : items.element v.path = .ok item) :
    v.MadeFrom library
      ⟨v.document, item, Request.elementLabel item label, Pointer.child v.path "items"⟩ :=
  ⟨.element hkind hlabel hitem, fun _ hobject ↦ by rw [hkind] at hobject; cases hobject⟩

theorem madeFrom_value {schema : ObjectSchema} {additional : Node}
    (hkind : v.node.kind = .object schema) (hplain : schema.hasProperties = false)
    (hadditional : schema.additional = some additional) :
    v.MadeFrom library
      ⟨v.document, additional, "value", Pointer.child v.path "additionalProperties"⟩ :=
  ⟨.value hkind hplain hadditional,
    fun _ hobject ↦ by rw [hkind] at hobject; cases hobject; exact hplain⟩

theorem madeFrom_merged {members : List Node} {label : String} {budget : Nat} {merged : Node}
    (hkind : v.node.kind = .allOf members) (hlabel : v.label = .ok label)
    (hmerge : mergeAllOf library budget v.document v.node members v.path {} =
      some (.ok merged, {})) :
    v.MadeFrom library
      { v with node := .mk (v.node.title.or (some label)) merged.description merged.kind } :=
  ⟨.merged hkind hlabel hmerge, fun _ hobject ↦ by rw [hkind] at hobject; cases hobject⟩

end

theorem HasType.exists_step (h : v.HasType cx) : ∃ budget scope session type session',
    Native.step cx (mergeAllOf cx.library budget) (Native.map cx budget) v.document v.node
      (v.request scope) session = some (.ok type, session') := by
  obtain ⟨scope, session, type, session', budget, hrun⟩ := h
  cases budget with
  | zero => cases hrun
  | succ budget => exact ⟨budget, scope, session, type, session', hrun⟩

/-- What a type is made from has a type. -/
theorem HasType.madeFrom (h : v.HasType cx) (hmade : v.MadeFrom cx.library v') :
    v'.HasType cx := by
  obtain ⟨budget, scope, session, type, session', hrun⟩ := h.exists_step
  obtain ⟨document, ⟨title, description, kind⟩, name, path⟩ := v
  obtain ⟨hcomes, hobject⟩ := hmade
  cases hcomes with
  | target hkind htarget =>
    obtain rfl : kind = _ := hkind
    obtain ⟨found, mapped, after, hfound, hbody, -⟩ := Native.reference_describes hrun
    cases hfound.symm.trans htarget
    exact ⟨"", _, _, _, budget, hbody⟩
  | element hkind hlabel hitem =>
    obtain rfl : kind = _ := hkind
    obtain ⟨label, between, hfound, harray⟩ := bind_eq_ok.1 hrun
    obtain ⟨hlabel', rfl⟩ := ofExcept_eq_ok.1 hfound
    cases hlabel'.symm.trans hlabel
    obtain ⟨item, element, after, hitem', helement, -⟩ := Native.array_describes harray
    cases hitem'.symm.trans hitem
    exact ⟨scope, _, _, _, budget, helement⟩
  | @value schema additional hkind hplain hadditional =>
    obtain rfl : kind = _ := hkind
    obtain ⟨label, between, hfound, hobject⟩ := bind_eq_ok.1 hrun
    change Native.objectLike cx (Native.map cx budget) document schema label _ _ = _ at hobject
    unfold Native.objectLike at hobject
    rw [hplain, hadditional] at hobject
    obtain ⟨stem, claimed, hclaim, hmapped⟩ := bind_eq_ok.1 hobject
    obtain ⟨value, after, hvalue, -⟩ := bind_eq_ok.1 hmapped
    exact ⟨stem, _, _, _, budget, hvalue⟩
  | @property schema name child hkind hmember =>
    cases (hobject schema hkind).symm.trans (ObjectSchema.hasProperties_of_mem hmember)
  | @propertyElement schema name child item items hkind hmember hchild hitem =>
    cases (hobject schema hkind).symm.trans (ObjectSchema.hasProperties_of_mem hmember)
  | @merged members label budget' merged hkind hlabel hmerge =>
    obtain rfl : kind = _ := hkind
    obtain ⟨label', between, hfound, hrest⟩ := bind_eq_ok.1 hrun
    obtain ⟨hlabel', rfl⟩ := ofExcept_eq_ok.1 hfound
    cases hlabel'.symm.trans hlabel
    obtain ⟨merged', after, hmerge', hnext⟩ := bind_eq_ok.1 hrest
    have hstart : mergeAllOf cx.library budget document (.mk title description (.allOf members))
        members path {} = some (.ok merged', {}) :=
      (mergeAllOf_static _ _ _ _ _ _).run_of_chain_subset hmerge' (List.nil_subset _)
    cases run_unique (fun hle ↦ mergeAllOf_refines cx.library hle _ _ _ _) hstart hmerge
    exact ⟨scope, _, _, _, budget, hnext⟩

/-- A schema that has a type is named, unless it refers to another one. -/
theorem HasType.label (h : v.HasType cx) (hkind : v.node.isReference = false) :
    ∃ label, v.label = .ok label := by
  obtain ⟨budget, scope, session, type, session', hrun⟩ := h.exists_step
  obtain ⟨document, ⟨title, description, kind⟩, name, path⟩ := v
  cases kind with
  | reference target => cases hkind
  | _ =>
    obtain ⟨label, between, hfound, -⟩ := bind_eq_ok.1 hrun
    exact ⟨label, (ofExcept_eq_ok.1 hfound).1⟩

theorem HasType.element (h : v.HasType cx) {items : Items} (hkind : v.node.kind = .array items) :
    ∃ item, items.element v.path = .ok item := by
  obtain ⟨budget, scope, session, type, session', hrun⟩ := h.exists_step
  obtain ⟨document, ⟨title, description, kind⟩, name, path⟩ := v
  obtain rfl : kind = _ := hkind
  obtain ⟨label, between, -, harray⟩ := bind_eq_ok.1 hrun
  obtain ⟨item, element, after, hitem, -⟩ := Native.array_describes harray
  exact ⟨item, hitem⟩

theorem HasType.constant (h : v.HasType cx) {value : Json} {minimum : Option Double}
    (hkind : v.node.kind = .constant value minimum) : ∃ type, constantType? value = some type := by
  obtain ⟨budget, scope, session, type, session', hrun⟩ := h.exists_step
  obtain ⟨document, ⟨title, description, kind⟩, name, path⟩ := v
  obtain rfl : kind = _ := hkind
  obtain ⟨label, between, -, hconstant⟩ := bind_eq_ok.1 hrun
  obtain ⟨primitive, hprimitive, -⟩ := Native.constant_describes hconstant
  exact ⟨primitive, hprimitive⟩

theorem HasType.constrained (h : v.HasType cx) : v.node.kind ≠ .unconstrained := by
  intro hkind
  obtain ⟨budget, scope, session, type, session', hrun⟩ := h.exists_step
  obtain ⟨document, ⟨title, description, kind⟩, name, path⟩ := v
  obtain rfl : kind = _ := hkind
  obtain ⟨label, between, -, hfail⟩ := bind_eq_ok.1 hrun
  cases hfail

theorem HasType.isUnion (h : v.HasType cx) : v.node.kind.isUnion = false := by
  obtain ⟨budget, scope, session, type, session', hrun⟩ := h.exists_step
  obtain ⟨document, ⟨title, description, kind⟩, name, path⟩ := v
  cases kind with
  | oneOf members =>
    obtain ⟨label, between, -, hfail⟩ := bind_eq_ok.1 hrun
    cases hfail
  | anyOf members =>
    obtain ⟨label, between, -, hfail⟩ := bind_eq_ok.1 hrun
    cases hfail
  | _ => rfl

end Visit

/-- The mapping does not fail for want of a type. -/
abbrev Firm {α : Type} (mapping : Mapping α) : Prop :=
  Obeys firmRules (fun _ ↦ True) mapping fun _ _ ↦ True

section

variable {α β : Type}

theorem firm_pure (value : α) : Firm (pure value) := obeys_pure fun _ _ _ ↦ trivial

theorem firm_fail {failure : Failure} (h : failure.isRecoverable = false) :
    Firm (fail failure : Mapping α) := obeys_fail fun _ _ ↦ h

/-- A step that can only collide. -/
theorem firm_collides_bind {result : Except Failure α} {next : α → Mapping β}
    (h : ∀ failure, result = .error failure → failure.isCollision)
    (hnext : ∀ value, Firm (next value)) : Firm (Mapping.ofExcept result >>= next) :=
  obeys_ofExcept_bind
    (fun failure hfailure ↦ Failure.isRecoverable_of_isCollision (h failure hfailure))
    fun value _ ↦ hnext value

theorem firm_claim_bind {request : Request} {library : Library} {document : Document}
    {kind : SymbolKind} {label : String} {next : String → Mapping β}
    (hnext : ∀ stem, Firm (next stem)) :
    Firm (request.claim library document kind label >>= next) :=
  (obeys_claim stable_true fun _ _ ↦ trivial).bind fun stem ↦
    (hnext stem).imp (fun _ _ ↦ trivial) fun _ _ _ ↦ trivial

/-- A value that is known is gone on with. -/
theorem firm_ok_bind {result : Except Failure α} {value : α} {next : α → Mapping β}
    (h : result = .ok value) (hnext : Firm (next value)) :
    Firm (Mapping.ofExcept result >>= next) := by
  subst h
  exact obeys_ofExcept_bind nofun fun _ hvalue ↦ by cases hvalue; exact hnext

theorem firm_label_bind (h : v.HasType cx) (hkind : v.node.isReference = false)
    {next : String → Mapping β} {scope : String}
    (hnext : ∀ label, v.label = .ok label → Firm (next label)) :
    Firm (Mapping.ofExcept ((v.request scope).label v.node) >>= next) := by
  obtain ⟨label, hlabel⟩ := h.label hkind
  exact firm_ok_bind hlabel (hnext label hlabel)

end

/-! ## Native types -/

namespace Native

variable {mapper : Mapper} {budget : Nat} {document : Document} {label : String} {request : Request}

theorem reference_firm {reference : String}
    (h : ∀ target, cx.library.resolve document reference request.path = .ok target →
      Firm (mapper target.owner target.node (.ofTarget target))) :
    Firm (Native.reference cx mapper document reference request) :=
  obeys_faults_bind (cx.library.resolve_faults _ _ _) fun target htarget ↦
    ((h target htarget).following _ _).bind fun _ ↦ firm_pure _

theorem array_firm {items : Items} {item : Node} (hitem : items.element request.path = .ok item)
    (h : Firm (mapper document item (request.element item label))) :
    Firm (array cx mapper document items label request) :=
  firm_ok_bind hitem <| h.bind fun _ ↦ firm_claim_bind fun _ ↦
    firm_collides_bind (fun _ ↦ Output.merge_toExcept_collides) fun _ ↦
      firm_collides_bind (fun _ ↦ addHandle_collides) fun _ ↦ firm_pure _

theorem dictionary_firm {additional : Node}
    (h : ∀ stem, Firm (mapper document additional (request.mapValue stem))) :
    Firm (dictionary cx mapper document additional label request) :=
  firm_claim_bind fun stem ↦ (h stem).bind fun _ ↦
    firm_collides_bind (fun _ ↦ Output.merge_toExcept_collides) fun _ ↦
      firm_collides_bind (fun _ ↦ addHandle_collides) fun _ ↦ firm_pure _

/-- A property without a type is left out, whatever it is. -/
theorem addProperty_firm (parent : Parent) (schema : ObjectSchema) (soFar : Gathered)
    (entry : String × Node) :
    Firm (addProperty cx (map cx budget) document parent schema request soFar entry) := by
  have hproperty : Obeys freeRules (fun _ ↦ True) (property cx (map cx budget) document parent
      (schema.isOptional entry.1) entry.1 entry.2 (request.property parent.stem entry.1))
      fun _ _ ↦ True :=
    (property_claims (map_claims_any cx budget) _ _ _ _).obeys
  refine Obeys.bind (hproperty.attempt rfl) fun mapped ↦ ?_
  cases mapped with
  | ok found =>
    exact (firm_collides_bind (fun _ ↦ Output.merge_toExcept_collides) fun _ ↦ firm_pure _).imp
      (fun _ _ ↦ trivial) fun _ _ _ ↦ trivial
  | error failure => exact obeys_ite_warn (fun _ _ _ _ ↦ trivial) fun hfirm _ _ ↦ hfirm

theorem object_firm (schema : ObjectSchema) :
    Firm (Native.object cx (map cx budget) document schema label request) :=
  firm_claim_bind fun _ ↦ (obeys_foldlM fun _ entry _ _ soFar ↦
    addProperty_firm _ schema soFar entry).bind fun _ ↦
      firm_collides_bind (fun _ ↦ addHandle_collides) fun _ ↦ firm_pure _

/-- A schema that has a type in some session fails in no session for want of one. -/
theorem map_firm (budget : Nat) (h : v.HasType cx) (scope : String) :
    Firm (map cx budget v.document v.node (v.request scope)) := by
  induction budget generalizing v scope with
  | zero => exact obeys_exhausted
  | succ budget ih =>
    change Firm (step cx (mergeAllOf cx.library budget) (map cx budget) v.document v.node
      (v.request scope))
    have hpart : ∀ {v' : Visit}, v.MadeFrom cx.library v' → ∀ scope,
        Firm (map cx budget v'.document v'.node (v'.request scope)) :=
      fun hmade scope ↦ ih (h.madeFrom hmade) scope
    obtain ⟨document, ⟨title, description, kind⟩, name, path⟩ := v
    cases kind with
    | reference target =>
      exact reference_firm fun target htarget ↦ hpart (Visit.madeFrom_target rfl htarget) ""
    | constant value minimum =>
      refine firm_label_bind h rfl fun label _ ↦ ?_
      obtain ⟨type, htype⟩ := h.constant rfl
      change Firm (constant cx value minimum label path)
      unfold constant
      rw [htype]
      exact firm_pure _
    | enumeration values =>
      exact firm_label_bind h rfl fun label _ ↦ firm_claim_bind fun _ ↦ firm_pure _
    | object schema =>
      refine firm_label_bind h rfl fun label _ ↦ ?_
      change Firm (objectLike cx (map cx budget) document schema label _)
      unfold objectLike
      split
      · exact object_firm schema
      · have hplain := Bool.eq_false_iff.2 ‹_›
        split
        · exact dictionary_firm fun stem ↦ hpart (Visit.madeFrom_value rfl hplain ‹_›) stem
        · split
          · exact firm_fail rfl
          · exact firm_pure _
    | array items =>
      refine firm_label_bind h rfl fun label hlabel ↦ ?_
      obtain ⟨item, hitem⟩ := h.element rfl
      exact array_firm hitem (hpart (Visit.madeFrom_element rfl hlabel hitem) scope)
    | allOf members =>
      refine firm_label_bind h rfl fun label hlabel ↦ ?_
      refine (mergeAllOf_obeys budget _ _ members _).bind fun merged ↦ ?_
      intro session result session' hrun hholds hstart
      exact hpart (Visit.madeFrom_merged rfl hlabel hstart.2) scope hrun hholds trivial
    | primitive type minimum => exact firm_label_bind h rfl fun label _ ↦ firm_pure _
    | oneOf members => exact firm_label_bind h rfl fun label _ ↦ firm_fail rfl
    | anyOf members => exact firm_label_bind h rfl fun label _ ↦ firm_fail rfl
    | unconstrained => exact absurd rfl h.constrained

end Native

/-! ## Wire types -/

namespace Wire

variable {mapper : Mapper} {budget : Nat} {document : Document} {label : String} {request : Request}

theorem reference_firm {reference : String}
    (h : ∀ target, cx.library.resolve document reference request.path = .ok target →
      Firm (mapper target.owner target.node (.ofTarget target))) :
    Firm (Wire.reference cx mapper document reference request) :=
  obeys_faults_bind (cx.library.resolve_faults _ _ _) fun target htarget ↦
    ((h target htarget).following _ _).bind fun _ ↦ firm_pure _

theorem array_firm {items : Items} {item : Node} (hitem : items.element request.path = .ok item)
    (h : Firm (mapper document item (request.element item label))) :
    Firm (array cx mapper document items label request) :=
  firm_ok_bind hitem <| h.bind fun _ ↦
    firm_collides_bind (fun _ ↦ Output.merge_toExcept_collides) fun _ ↦ firm_pure _

theorem dictionary_firm {additional : Node}
    (h : ∀ stem, Firm (mapper document additional (request.mapValue stem))) :
    Firm (dictionary cx mapper document additional label request) :=
  firm_claim_bind fun stem ↦ (h stem).bind fun _ ↦
    firm_collides_bind (fun _ ↦ Output.merge_toExcept_collides) fun _ ↦ firm_pure _

theorem addMember_firm (stem : String) (soFar : Gathered) (entry : String × Node) :
    Firm (addMember (map cx budget) document stem request soFar entry) := by
  have hvalue : Obeys freeRules (fun _ ↦ True)
      (map cx budget document entry.2 (request.property stem entry.1)) fun _ _ ↦ True :=
    (map_claims_any cx budget _ _ _).obeys
  refine Obeys.bind (hvalue.attempt rfl) fun mapped ↦ ?_
  cases mapped with
  | ok value =>
    exact (firm_collides_bind (fun _ ↦ Output.merge_toExcept_collides) fun _ ↦ firm_pure _).imp
      (fun _ _ ↦ trivial) fun _ _ _ ↦ trivial
  | error failure => exact obeys_ite_warn (fun _ _ _ _ ↦ trivial) fun hfirm _ _ ↦ hfirm

theorem object_firm (schema : ObjectSchema) :
    Firm (Wire.object cx (map cx budget) document schema label request) :=
  firm_claim_bind fun stem ↦ (obeys_foldlM fun _ entry _ _ soFar ↦
    addMember_firm stem soFar entry).bind fun _ ↦
      firm_collides_bind (fun _ ↦ Output.insert_toExcept_collides) fun _ ↦ firm_pure _

/-- A schema that has a native type in some session fails on the wire side in none for want of a
type. -/
theorem map_firm (budget : Nat) (h : v.HasType cx) (scope : String) :
    Firm (map cx budget v.document v.node (v.request scope)) := by
  induction budget generalizing v scope with
  | zero => exact obeys_exhausted
  | succ budget ih =>
    change Firm (step cx (mergeAllOf cx.library budget) (map cx budget) v.document v.node
      (v.request scope))
    have hpart : ∀ {v' : Visit}, v.MadeFrom cx.library v' → ∀ scope,
        Firm (map cx budget v'.document v'.node (v'.request scope)) :=
      fun hmade scope ↦ ih (h.madeFrom hmade) scope
    obtain ⟨document, ⟨title, description, kind⟩, name, path⟩ := v
    cases kind with
    | reference target =>
      exact reference_firm fun target htarget ↦ hpart (Visit.madeFrom_target rfl htarget) ""
    | constant value minimum =>
      refine firm_label_bind h rfl fun label _ ↦ ?_
      obtain ⟨type, htype⟩ := h.constant rfl
      change Firm (constant cx value minimum path)
      unfold constant
      rw [htype]
      exact firm_pure _
    | enumeration values =>
      exact firm_label_bind h rfl fun label _ ↦ firm_claim_bind fun _ ↦ firm_pure _
    | object schema =>
      refine firm_label_bind h rfl fun label _ ↦ ?_
      change Firm (objectLike cx (map cx budget) document schema label _)
      unfold objectLike
      split
      · exact object_firm schema
      · have hplain := Bool.eq_false_iff.2 ‹_›
        split
        · exact dictionary_firm fun stem ↦ hpart (Visit.madeFrom_value rfl hplain ‹_›) stem
        · split
          · exact firm_fail rfl
          · exact firm_pure _
    | array items =>
      refine firm_label_bind h rfl fun label hlabel ↦ ?_
      obtain ⟨item, hitem⟩ := h.element rfl
      exact array_firm hitem (hpart (Visit.madeFrom_element rfl hlabel hitem) scope)
    | allOf members =>
      refine firm_label_bind h rfl fun label hlabel ↦ ?_
      refine (mergeAllOf_obeys budget _ _ members _).bind fun merged ↦ ?_
      intro session result session' hrun hholds hstart
      exact hpart (Visit.madeFrom_merged rfl hlabel hstart.2) scope hrun hholds trivial
    | primitive type minimum => exact firm_label_bind h rfl fun label _ ↦ firm_pure _
    | oneOf members => exact firm_label_bind h rfl fun label _ ↦ firm_fail rfl
    | anyOf members => exact firm_label_bind h rfl fun label _ ↦ firm_fail rfl
    | unconstrained => exact absurd rfl h.constrained

end Wire

end SchemaBindings
