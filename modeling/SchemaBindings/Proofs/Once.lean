import SchemaBindings.Proofs.Breaks
import SchemaBindings.Proofs.Locations
import SchemaBindings.Proofs.Pointers

/-!
# Definitions are mapped once

While the mapping of a definition goes on, no other call of it is for the place of the definition in
its document. A reference to this place would close a cycle, and the parts of schemas are at other
places, with one exception: the object that holds all definitions is a value as well, and a
reference may have it read as a schema. Its values are then of the schema that the definition
`additionalProperties` is. But the mapping of this definition cannot be repeated below a reference
that it follows, so that a mapping that succeeds does not come to this.
-/

namespace SchemaBindings

open Schema

/-! ## Places of definitions -/

theorem Pointer.child_inj {path path' step step' : String}
    (h : child path step = child path' step') : path = path' ∧ step = step' := by
  have hstep : step = step' := by rw [← lastStep_child path step, h, lastStep_child]
  subst hstep
  unfold child at h
  rw [String.append_assoc, String.append_assoc] at h
  exact ⟨String.append_left_inj _ |>.1 h, rfl⟩

theorem Pointer.child_ne_self (path step : String) : child path step ≠ path := by
  intro h
  have hlength := congrArg (fun text ↦ text.toList.length) h
  simp [child] at hlength

namespace Document

/-- The place of the object that holds the definitions. -/
def definitionsPath (document : Document) : String := document.schemaPath document.definitionsRoot

theorem exists_root_of_read {content : Json} {document : Document}
    (h : Document.read content = .ok document) : ∃ root : DefinitionsRoot,
      document.definitionsPath = document.title ++ root.pointer := by
  obtain ⟨root, hroot⟩ := definitionsRoot_eq h
  exact ⟨root, by rw [definitionsPath, hroot, schemaPath]⟩

theorem schemaPath_definitionRef (document : Document) (name : String) :
    document.schemaPath (document.definitionRef name) =
      Pointer.child document.definitionsPath name := by
  simp only [schemaPath, definitionRef, definitionsPath, Pointer.child, String.append_assoc]

end Document

/-- The last step to the object that holds the definitions. -/
theorem DefinitionsRoot.of_path_eq_child {title path step : String} {root : DefinitionsRoot}
    (h : title ++ root.pointer = Pointer.child path step) :
    path = title ++ "#" ∧ step = "definitions" ∨
      path = Pointer.child (title ++ "#") "components" ∧ step = "schemas" := by
  cases root with
  | definitions =>
    have hchild : title ++ pointer .definitions = Pointer.child (title ++ "#") "definitions" :=
      String.toList_injective
        (by simp [pointer, Pointer.child, Pointer.escapeStep, Pointer.escapeChar])
    exact .inl (Pointer.child_inj (h.symm.trans hchild))
  | components =>
    have hchild : title ++ pointer .components =
        Pointer.child (Pointer.child (title ++ "#") "components") "schemas" :=
      String.toList_injective
        (by simp [pointer, Pointer.child, Pointer.escapeStep, Pointer.escapeChar])
    exact .inr (Pointer.child_inj (h.symm.trans hchild))

namespace Document

variable {content : Json} {document : Document} (hread : Document.read content = .ok document)
include hread

theorem step_of_definitionsPath {path step : String}
    (h : Pointer.child path step = document.definitionsPath) :
    step = "definitions" ∨ step = "schemas" := by
  obtain ⟨root, hroot⟩ := exists_root_of_read hread
  rw [hroot] at h
  exact (DefinitionsRoot.of_path_eq_child h.symm).imp And.right And.right

/-- The definitions are no properties of a schema. -/
theorem property_ne_definitionsPath (path name : String) :
    Pointer.child (Pointer.child path "properties") name ≠ document.definitionsPath := by
  obtain ⟨root, hroot⟩ := exists_root_of_read hread
  rw [hroot]
  intro h
  obtain ⟨hpath, -⟩ | ⟨hpath, -⟩ := DefinitionsRoot.of_path_eq_child h.symm
  · have hlast := congrArg (fun text ↦ text.toList.getLast?) hpath
    simp [Pointer.child, Pointer.escapeStep, Pointer.escapeChar] at hlast
  · exact absurd (Pointer.child_inj hpath).2 (by decide)

end Document

/-! ## The object that holds the definitions -/

section Holder

variable {path : String} {entries : Entries} {nodes : List (String × Node)} {f : Form}

theorem exists_read_of_get? (h : readEntries path entries = .ok nodes) {key : String}
    {value : Json} (hvalue : Table.get? key entries = some value) :
    ∃ node, Node.read (Pointer.child path key) value = .ok node := by
  induction entries generalizing nodes with
  | nil => cases hvalue
  | cons entry rest ih =>
    obtain ⟨name, first⟩ := entry
    rw [readEntries] at h
    obtain ⟨node, hnode, hothers⟩ := Failure.bind_eq_ok.1 h
    obtain ⟨others, hrest, -⟩ := Failure.bind_eq_ok.1 hothers
    by_cases hkey : name = key
    · subst hkey
      rw [Table.get?, if_pos rfl] at hvalue
      cases hvalue
      exact ⟨node, hnode⟩
    · rw [Table.get?, if_neg hkey] at hvalue
      exact ih hrest hvalue

theorem exists_read_of_readAdditional {additional : Node}
    (h : readAdditional path (additional? entries) = .ok (some additional)) :
    ∃ value, Table.get? "additionalProperties" entries = some value ∧
      Node.read path value = .ok additional := by
  cases hvalue : additional? entries with
  | none =>
    rw [hvalue, readAdditional] at h
    cases h
  | some value =>
    rw [hvalue, readAdditional] at h
    obtain ⟨found, hfound, heq⟩ := Failure.map_eq_ok.1 h
    cases heq
    unfold additional? at hvalue
    split at hvalue <;> cases hvalue
    exact ⟨_, ‹_›, hfound⟩

/-- All values are of the kinds that schemas are read from. -/
def Schema.AreSchemas (entries : Entries) : Prop :=
  ∀ key value, Table.get? key entries = some value →
    (∃ inner, value = .object inner) ∨ ∃ flag, value = .bool flag

theorem areSchemas_of_readEntries (h : readEntries path entries = .ok nodes) :
    AreSchemas entries := by
  intro key value hvalue
  obtain ⟨node, hnode⟩ := exists_read_of_get? h hvalue
  cases value with
  | object inner => exact .inl ⟨inner, rfl⟩
  | bool flag => exact .inr ⟨flag, rfl⟩
  | _ =>
    unfold Node.read at hnode
    cases hnode

variable (hentries : AreSchemas entries)
include hentries

theorem Schema.eq_none_of_typeKeyword {type : Option String}
    (h : typeKeyword path entries = .ok type) : type = none := by
  unfold typeKeyword at h
  cases htype : Table.get? "type" entries with
  | none =>
    rw [htype] at h
    exact (Except.ok.inj h).symm
  | some value =>
    rw [htype] at h
    obtain ⟨inner, rfl⟩ | ⟨flag, rfl⟩ := hentries _ _ htype <;> cases h

theorem Schema.cases?_eq_none : cases? none entries = none := by
  unfold cases?
  cases henum : Table.get? "enum" entries with
  | none => rfl
  | some value => obtain ⟨inner, rfl⟩ | ⟨flag, rfl⟩ := hentries _ _ henum <;> rfl

theorem Schema.form_of_shapeForm (h : shapeForm path none entries = .ok f) :
    f = objectForm entries ∨ f = .unconstrained := by
  unfold shapeForm at h
  rw [if_neg (by simp)] at h
  cases hcomposition : composition? entries with
  | some found =>
    obtain ⟨composition, value⟩ := found
    rw [hcomposition] at h
    obtain ⟨c, -, hc⟩ := List.exists_of_findSome?_eq_some hcomposition
    obtain ⟨found, hfound, hpair⟩ := Option.map_eq_some_iff.1 hc
    cases hpair
    obtain ⟨inner, rfl⟩ | ⟨flag, rfl⟩ := hentries _ _ hfound <;> cases h
  | none =>
    rw [hcomposition] at h
    dsimp only at h
    split at h <;> cases h
    · exact .inl rfl
    · exact .inr rfl

/-- If such an object is itself read as a schema, it is no list and no composition. -/
theorem Schema.form_of_schemas (h : form path entries = .ok f) :
    (∃ value minimum, f = .constant value minimum) ∨ f = objectForm entries ∨
      f = .unconstrained := by
  unfold form at h
  cases href : Table.get? "$ref" entries with
  | some value =>
    rw [href] at h
    obtain ⟨inner, rfl⟩ | ⟨flag, rfl⟩ := hentries _ _ href <;> cases h
  | none =>
    rw [href] at h
    dsimp only at h
    cases hconst : Table.get? "const" entries with
    | some value =>
      rw [hconst] at h
      cases h
      exact .inl ⟨value, _, rfl⟩
    | none =>
      rw [hconst] at h
      dsimp only at h
      cases htype : typeKeyword path entries with
      | error failure =>
        rw [htype] at h
        cases h
      | ok type =>
        rw [htype] at h
        cases eq_none_of_typeKeyword hentries htype
        change typedForm path none entries = .ok f at h
        unfold typedForm at h
        rw [cases?_eq_none hentries] at h
        exact .inr (form_of_shapeForm hentries h)

/-- Such an object has values of its own kind only if one of the schemas is called so. -/
theorem Node.kind_of_schemas {node : Node} (h : Node.read path (.object entries) = .ok node) :
    (∀ items, node.kind ≠ .array items) ∧ ¬node.IsComposition ∧
      ∀ schema additional, node.kind = .object schema → schema.additional = some additional →
        ∃ value, Table.get? "additionalProperties" entries = some value ∧
          Node.read (Pointer.child path "additionalProperties") value = .ok additional := by
  obtain ⟨f, kind, hform, hkind, rfl⟩ := Node.read_object_eq_ok h
  dsimp only [Node.kind_mk]
  obtain ⟨value, minimum, rfl⟩ | rfl | rfl := form_of_schemas hentries hform
  · rw [Kind.ofForm] at hkind
    cases hkind
    exact ⟨nofun, nofun, nofun⟩
  · unfold objectForm at hkind
    rw [Kind.ofForm] at hkind
    obtain ⟨members, -, hrest⟩ := Failure.bind_eq_ok.1 hkind
    obtain ⟨found, hfound, hpure⟩ := Failure.bind_eq_ok.1 hrest
    cases hpure
    refine ⟨nofun, nofun, ?_⟩
    rintro _ additional ⟨⟩ hadditional
    obtain rfl : found = some additional := hadditional
    exact exists_read_of_readAdditional hfound
  · rw [Kind.ofForm] at hkind
    cases hkind
    exact ⟨nofun, nofun, nofun⟩

omit hentries

end Holder

namespace Document

theorem fragment?_root (document : Document) (root : DefinitionsRoot) :
    document.fragment? root.pointer = root.steps.foldlM Json.step? document.content := by
  have htext : root.pointer.toList = '#' :: (Pointer.under "" root.steps).toList := by
    rw [Pointer.toList_under]
    cases root <;>
      simp [DefinitionsRoot.pointer, DefinitionsRoot.steps, slashed, Pointer.escapeStep,
        Pointer.escapeChar]
  unfold fragment?
  rw [htext]
  change document.content.at? (String.ofList (Pointer.under "" root.steps).toList) = _
  rw [String.ofList_toList, Json.at?_under]

variable {content : Json} {document : Document} {name : String} {node : Node}

/-- A reference to the root of the definitions leads to the object that holds them. -/
theorem fragment?_definitionsRoot (hread : Document.read content = .ok document)
    (hnode : Table.get? name document.definitions = some node) :
    document.fragment? document.definitionsRoot =
      some (.object (rawDefinitions content).2) := by
  obtain ⟨hdefinitions, -, hroot, hcontent⟩ := Document.read_eq_ok hread
  obtain ⟨value, hvalue, -⟩ := exists_get?_of_readEntries hdefinitions hnode
  rw [hroot]
  revert hvalue
  unfold rawDefinitions
  split
  case h_1 definitions hfound =>
    refine fun _ ↦ (fragment?_root document .definitions).trans ?_
    rw [hcontent]
    exact Option.bind_eq_some_iff.2 ⟨_, step?_of_get? hfound, rfl⟩
  case h_2 =>
    split
    case h_1 definitions hfound =>
      refine fun _ ↦ (fragment?_root document .components).trans ?_
      rw [hcontent]
      exact hfound
    case h_2 =>
      intro hvalue
      split at hvalue <;> cases hvalue

end Document

/-! ## Calls at the place of a definition -/

/-- Two references to one place have the same key, and what is found there is read from the same
value. -/
theorem Library.resolve_of_path {library : Library} {current : Document}
    {reference place fragment : String} {target : Target}
    (h : library.resolve current reference place = .ok target)
    (hpath : target.path = target.owner.schemaPath fragment) :
    target.key = target.owner.uri ++ fragment ∧ ∃ value,
      target.owner.fragment? fragment = some value ∧
        Node.read (target.owner.schemaPath fragment) value = .ok target.node := by
  obtain ⟨found, value, -, hvalue, hnode, -, -, hkey, hplace⟩ := resolve_eq_ok h
  obtain rfl : found = fragment := by
    unfold Document.schemaPath at hplace hpath
    exact String.append_right_inj _ |>.1 (hplace.symm.trans hpath)
  exact ⟨hkey, value, hvalue, hnode⟩

section Calls

variable {library : Library} {walk : Walk} {call last : Call} {content : Json}
  {document : Document} {name : String} {node : Node}

/-- The last call is made below a reference that is followed in the first one. -/
def Call.Follows (library : Library) (walk : Walk) (call last : Call) : Prop :=
  ∃ caller reference target, Relation.ReflTransGen (Asks library walk) call caller ∧
    caller.node.kind = .reference reference ∧
    library.resolve caller.document reference caller.request.path = .ok target ∧
    target.key ∈ last.session.chain

theorem chain_subset_of_leads (hwalk : walk.KeepsChain)
    (h : Relation.ReflTransGen (Asks library walk) call last) :
    call.session.chain ⊆ last.session.chain := by
  induction h with
  | refl => exact List.Subset.refl _
  | tail _ hasks ih => exact List.Subset.trans ih (hasks.chain_subset hwalk)

variable (hread : Document.read content = .ok document)
  (hnode : Table.get? name document.definitions = some node)
include hread hnode

theorem read_of_definitionsPath {current : Document} {reference place : String} {target : Target}
    (htarget : library.resolve current reference place = .ok target)
    (howner : target.owner = document) (hpath : target.path = document.definitionsPath) :
    Node.read document.definitionsPath (.object (Document.rawDefinitions content).2) =
      .ok target.node := by
  subst howner
  obtain ⟨-, value, hvalue, hvalueRead⟩ := Library.resolve_of_path htarget hpath
  rw [Document.fragment?_definitionsRoot hread hnode] at hvalue
  cases hvalue
  exact hvalueRead

/-- The object that holds the definitions is read as a schema only below a reference to it. -/
theorem follows_of_definitionsPath
    (hleads : Relation.ReflTransGen (Asks library walk) call last)
    (hcall : call.request.path ≠ document.definitionsPath) (hdocument : last.document = document)
    (hpath : last.request.path = document.definitionsPath) :
    call.Follows library walk last ∧
      Node.read document.definitionsPath (.object (Document.rawDefinitions content).2) =
        .ok last.node := by
  obtain ⟨hdefinitions, -⟩ := Document.read_eq_ok hread
  induction hleads with
  | refl => exact absurd hpath hcall
  | tail hleads hasks ih =>
    cases hasks with
    | target hkind htarget hkey =>
      exact ⟨⟨_, _, _, hleads, hkind, htarget, List.mem_cons_self⟩,
        read_of_definitionsPath hread hnode htarget hdocument hpath⟩
    | element => exact absurd (Document.step_of_definitionsPath hread hpath) (by decide)
    | value => exact absurd (Document.step_of_definitionsPath hread hpath) (by decide)
    | property => exact absurd hpath (Document.property_ne_definitionsPath hread _ _)
    | propertyElement => exact absurd (Document.step_of_definitionsPath hread hpath) (by decide)
    | merged hkind hlabel hmerge =>
      obtain ⟨-, hholder⟩ := ih hdocument hpath
      obtain ⟨-, hplain, -⟩ := Node.kind_of_schemas (areSchemas_of_readEntries hdefinitions) hholder
      exact absurd ⟨_, hkind⟩ hplain

/-- Another call at the place of a definition is for the same schema, and it is made below a
reference that the first one follows. -/
theorem eq_or_mirrors (hwalk : walk.KeepsChain)
    (hleads : Relation.ReflTransGen (Asks library walk) call last)
    (hcall : call.document = document ∧ call.node = node ∧
      call.request.path = document.schemaPath (document.definitionRef name))
    (hplain : ¬node.IsComposition)
    (hkey : document.uri ++ document.definitionRef name ∈ call.session.chain)
    (hdocument : last.document = document)
    (hpath : last.request.path = document.schemaPath (document.definitionRef name)) :
    last = call ∨ call.Mirrors last ∧ call.Follows library walk last := by
  obtain ⟨hdefinitions, -⟩ := Document.read_eq_ok hread
  obtain ⟨hcallDocument, hcallNode, hcallPath⟩ := hcall
  have hstart : call.request.path ≠ document.definitionsPath := by
    rw [hcallPath, Document.schemaPath_definitionRef]
    exact Pointer.child_ne_self _ _
  induction hleads with
  | refl => exact .inl rfl
  | @tail caller last hleads hasks ih =>
    have hchild := hpath
    rw [Document.schemaPath_definitionRef] at hchild
    have hchain := hasks.chain_subset hwalk
    cases hasks with
    | target hkind htarget hclosed =>
      obtain rfl := hdocument
      obtain ⟨hsame, -⟩ := Library.resolve_of_path htarget hpath
      rw [hsame] at hclosed
      exact absurd (chain_subset_of_leads hwalk hleads hkey) hclosed
    | element hkind hlabel hitem =>
      obtain ⟨hholder, -⟩ := Pointer.child_inj hchild
      obtain ⟨-, hreadHolder⟩ :=
        follows_of_definitionsPath hread hnode hleads hstart hdocument hholder
      obtain ⟨hlist, -⟩ :=
        Node.kind_of_schemas (areSchemas_of_readEntries hdefinitions) hreadHolder
      exact absurd hkind (hlist _)
    | value hkind hlabel hempty hadditional hclaim =>
      obtain ⟨hholder, hname⟩ := Pointer.child_inj hchild
      obtain ⟨⟨caller, reference, target, hcaller, href, htarget, hmem⟩, hreadHolder⟩ :=
        follows_of_definitionsPath hread hnode hleads hstart hdocument hholder
      obtain ⟨-, -, hvalues⟩ :=
        Node.kind_of_schemas (areSchemas_of_readEntries hdefinitions) hreadHolder
      obtain ⟨value, hvalue, hreadValue⟩ := hvalues _ _ hkind hadditional
      obtain ⟨written, hwritten, hreadWritten⟩ := exists_get?_of_readEntries hdefinitions hnode
      rw [← hname, hvalue] at hwritten
      cases hwritten
      have hsame : node = _ := Except.ok.inj (hreadWritten.symm.trans (hname ▸ hreadValue))
      have hnamed : "value" ≠ "" := by decide
      refine .inr ⟨⟨hdocument.trans hcallDocument.symm, ?_, hpath.trans hcallPath.symm,
        fun _ _ ↦ ⟨_, Request.label_of_name hnamed _⟩⟩, caller, reference, target, hcaller, href,
        htarget, hchain hmem⟩
      rw [hcallNode, hsame]
    | property =>
      obtain ⟨hholder, -⟩ := Pointer.child_inj hchild
      exact absurd (Document.step_of_definitionsPath hread hholder) (by decide)
    | propertyElement =>
      obtain ⟨hholder, -⟩ := Pointer.child_inj hchild
      exact absurd hholder (Document.property_ne_definitionsPath hread _ _)
    | merged hkind hlabel hmerge =>
      obtain heq | ⟨hmirrors, -⟩ := ih hdocument hpath
      · rw [← hcallNode, ← heq] at hplain
        exact absurd ⟨_, hkind⟩ hplain
      · have hsame := hmirrors.kind_eq
        rw [hcallNode] at hsame
        exact absurd ⟨_, hsame.symm.trans hkind⟩ hplain

/-- A mapping that succeeds comes once to the place of a definition. -/
theorem Native.eq_of_place {cx : Context} {type : NativeType} {after : Session}
    (hends : Native.Ends cx call.document call.node call.request call.session (.ok type) after)
    (hleads : Relation.ReflTransGen (Asks cx.library (Native.walk cx)) call last)
    (hcall : call.document = document ∧ call.node = node ∧
      call.request.path = document.schemaPath (document.definitionRef name))
    (hplain : ¬node.IsComposition)
    (hkey : document.uri ++ document.definitionRef name ∈ call.session.chain)
    (hdocument : last.document = document)
    (hpath : last.request.path = document.schemaPath (document.definitionRef name)) :
    last = call := by
  obtain heq | ⟨hmirrors, caller, reference, target, hcaller, hkind, htarget, hmem⟩ :=
    eq_or_mirrors hread hnode walk_keepsChain hleads hcall hplain hkey hdocument hpath
  · exact heq
  · have hanswers := Native.exists_ends_iff.1 ⟨_, _, hends⟩
    have hlast := Native.breaks_of_mirrors hmirrors hcaller hkind htarget hmem
      (Native.exists_answers_of_leads hanswers hleads)
    obtain ⟨failure, after', -, hfails⟩ := hlast.of_leads hleads hanswers
    obtain ⟨heq, -⟩ := hends.unique hfails
    cases heq

end Calls

end SchemaBindings
