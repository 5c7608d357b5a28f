import SchemaBindings.Proofs.Emissions
import SchemaBindings.Proofs.Resolution

/-!
# Reserved names of definitions

The first claim in a document is preceded by claims for its definitions, whichever type it is for.
If it is the first claim at all, the definitions find an empty registry, so that their stems are
determined by the library and the document alone. What comes later changes no stem: neither other
claims in the document nor those in other documents, in whatever order. A run that maps
definitions and emits methods is a run of claims, however many definitions it leaves out.
-/

namespace SchemaBindings

open Registry

/-! ## Definitions that are reserved -/

theorem Node.isReference_iff {node : Node} :
    node.isReference ↔ ∃ reference, node.kind = .reference reference := by
  unfold Node.isReference
  cases node.kind <;> simp [Kind.isReference]

/-- At most so many references are followed from the schema to one that is no reference. -/
inductive Library.LeadsOut (library : Library) : Nat → Document → Node → Prop
  | here {hops : Nat} {owner : Document} {node : Node} (h : ¬node.isReference) :
      LeadsOut library hops owner node
  | hop {hops : Nat} {owner : Document} {node : Node} {reference place : String} {found : Target}
      (hkind : node.kind = .reference reference)
      (hfound : library.resolve owner reference place = .ok found)
      (hnext : LeadsOut library hops found.owner found.node) :
      LeadsOut library (hops + 1) owner node

namespace Registry

variable {library : Library} {document : Document} {name : String} {node : Node}

/-- Whether a type is reserved for the definition: one of an enumeration, of an object with
properties, of a map, of a composition, or of an array whose elements have one schema. Elements
that refer to a schema have to lead out of the references in less hops than the limit. -/
inductive Covers (library : Library) (document : Document) (name : String) (node : Node) : Prop
  | enumeration {values : List String} (h : node.kind = .enumeration values)
  | composition {members : List Node} (h : node.kind = .allOf members)
  | object {schema : ObjectSchema} (h : node.kind = .object schema)
      (hproperties : schema.hasProperties = true)
  | map {schema : ObjectSchema} (h : node.kind = .object schema)
      (hadditional : schema.additional.isSome = true)
  | array {items : Items} {item : Node} (h : node.kind = .array items)
      (hitem : items.element (document.schemaPath (document.definitionRef name)) = .ok item)
      (hends : item.isReference → library.LeadsOut (hopLimit - 1) document item)

theorem not_leadsOut_of_error {hops : Nat} {reference place : String} {failure : Failure}
    (hkind : node.kind = .reference reference)
    (h : library.resolve document reference place = .error failure) :
    ¬library.LeadsOut hops document node := by
  intro hleads
  cases hleads with
  | here hplain => exact hplain (Node.isReference_iff.2 ⟨_, hkind⟩)
  | hop hkind' hfound _ =>
    rw [hkind] at hkind'
    cases hkind'
    rw [Library.resolve_place hfound place] at h
    cases h

theorem leadsOut_iff {hops : Nat} {reference place : String} {found : Target}
    (hkind : node.kind = .reference reference)
    (h : library.resolve document reference place = .ok found) :
    library.LeadsOut hops document node ↔
      ∃ fewer, hops = fewer + 1 ∧ library.LeadsOut fewer found.owner found.node := by
  constructor
  · intro hleads
    cases hleads with
    | here hplain => exact absurd (Node.isReference_iff.2 ⟨_, hkind⟩) hplain
    | hop hkind' hfound hnext =>
      rw [hkind] at hkind'
      cases hkind'
      rw [Library.resolve_place hfound place] at h
      cases h
      exact ⟨_, rfl, hnext⟩
  · rintro ⟨fewer, rfl, hnext⟩
    exact .hop hkind h hnext

/-- A chain of references has a title at its end if it gets there within the limit. -/
theorem isSome_finalTitle?_iff {place : String} {hops : Nat} {owner : Document} {current : Node}
    {title : Option String} :
    (finalTitle? library place (hops + 1) owner current title).isSome ↔
      library.LeadsOut hops owner current ∧ (title.isSome ∨ current.isReference) := by
  rw [finalTitle?]
  by_cases hcurrent : current.isReference
  · obtain ⟨reference, hkind⟩ := Node.isReference_iff.1 hcurrent
    simp only [hkind]
    cases hfound : library.resolve owner reference place with
    | error failure => simp [not_leadsOut_of_error hkind hfound]
    | ok found =>
      cases hops with
      | zero => simp [finalTitle?, leadsOut_iff hkind hfound]
      | succ hops =>
        have hnext := @isSome_finalTitle?_iff place hops found.owner found.node (some found.title)
        simp [hnext, leadsOut_iff hkind hfound, hcurrent]
  · have hplain : ∀ reference, current.kind ≠ .reference reference :=
      fun reference hkind ↦ hcurrent (Node.isReference_iff.2 ⟨reference, hkind⟩)
    split
    · exact absurd ‹_› (hplain _)
    · simp [hcurrent, Library.LeadsOut.here hcurrent]

theorem isSome_arrayLabel?_iff {label path : String} {items : Items} :
    (arrayLabel? library document label path items).isSome ↔
      ∃ item, items.element path = .ok item ∧
        (item.isReference → library.LeadsOut (hopLimit - 1) document item) := by
  unfold arrayLabel?
  cases hitem : items.element path with
  | error failure => simp
  | ok item =>
    have htitle : (finalTitle? library document.title hopLimit document item none).isSome ↔
        library.LeadsOut (hopLimit - 1) document item ∧ (none.isSome ∨ item.isReference) :=
      isSome_finalTitle?_iff
    by_cases hreference : item.isReference
    · simp [hreference, htitle]
    · simp [hreference]

theorem isSome_literalKind?_iff :
    (literalKind? node).isSome ↔
      (∃ values, node.kind = .enumeration values) ∨ (∃ members, node.kind = .allOf members) ∨
        ∃ schema, node.kind = .object schema ∧
          (schema.hasProperties = true ∨ schema.additional.isSome = true) := by
  unfold literalKind?
  cases hkind : node.kind with
  | object schema =>
    by_cases hproperties : schema.hasProperties = true
    · simp [hproperties]
    · by_cases hadditional : schema.additional.isSome = true <;>
        simp [hproperties, hadditional]
  | _ => simp

/-- A definition claims a stem if a type is reserved for it. -/
theorem isSome_definitionClaim?_iff :
    (definitionClaim? library document name node).isSome ↔ Covers library document name node := by
  have hliteral := @isSome_literalKind?_iff node
  constructor
  · intro h
    unfold definitionClaim? at h
    split at h
    · rw [Option.isSome_map, isSome_arrayLabel?_iff] at h
      obtain ⟨item, hitem, hends⟩ := h
      exact .array ‹_› hitem hends
    · rw [Option.isSome_map, hliteral] at h
      obtain ⟨values, hkind⟩ | ⟨members, hkind⟩ | ⟨schema, hkind, hmembers⟩ := h
      · exact .enumeration hkind
      · exact .composition hkind
      · obtain hproperties | hadditional := hmembers
        · exact .object hkind hproperties
        · exact .map hkind hadditional
  · intro h
    unfold definitionClaim?
    cases h with
    | array hkind hitem hends =>
      rw [hkind]
      exact Option.isSome_map.trans (isSome_arrayLabel?_iff.2 ⟨_, hitem, hends⟩)
    | enumeration hkind =>
      rw [hkind]
      exact Option.isSome_map.trans (hliteral.2 (.inl ⟨_, hkind⟩))
    | composition hkind =>
      rw [hkind]
      exact Option.isSome_map.trans (hliteral.2 (.inr (.inl ⟨_, hkind⟩)))
    | object hkind hproperties =>
      rw [hkind]
      exact Option.isSome_map.trans (hliteral.2 (.inr (.inr ⟨_, hkind, .inl hproperties⟩)))
    | map hkind hadditional =>
      rw [hkind]
      exact Option.isSome_map.trans (hliteral.2 (.inr (.inr ⟨_, hkind, .inr hadditional⟩)))

theorem path_of_definitionClaim? {claim : Claim}
    (h : definitionClaim? library document name node = some claim) :
    claim.path = document.schemaPath (document.definitionRef name) := by
  unfold definitionClaim? at h
  split at h
  · obtain ⟨label, -, rfl⟩ := Option.map_eq_some_iff.1 h
    rfl
  · obtain ⟨kind, -, rfl⟩ := Option.map_eq_some_iff.1 h
    rfl

theorem mem_definitionClaims {claim : Claim} (hnode : (name, node) ∈ document.definitions)
    (hclaim : definitionClaim? library document name node = some claim) :
    claim ∈ definitionClaims library document := by
  have hmem : claim ∈ document.definitions.filterMap fun entry ↦
      definitionClaim? library document entry.1 entry.2 :=
    List.mem_filterMap.2 ⟨(name, node), hnode, hclaim⟩
  by_cases hkind : claim.kind = .array
  · exact List.mem_append_right _ (List.mem_filter.2 ⟨hmem, by simpa using hkind⟩)
  · exact List.mem_append_left _ (List.mem_filter.2 ⟨hmem, by simpa using hkind⟩)

/-- What a definition claims is among the claims that are made in advance. -/
theorem Covers.exists_claim (h : Covers library document name node)
    (hnode : (name, node) ∈ document.definitions) :
    ∃ claim ∈ definitionClaims library document,
      claim.path = document.schemaPath (document.definitionRef name) := by
  obtain ⟨claim, hclaim⟩ := Option.isSome_iff_exists.1 (isSome_definitionClaim?_iff.2 h)
  exact ⟨claim, mem_definitionClaims hnode hclaim, path_of_definitionClaim? hclaim⟩

/-! ## Runs of claims -/

theorem isSome_stem?_assignAll {claim : Claim} {claims : List Claim} (h : claim ∈ claims)
    (title : String) (registry : Registry) :
    ((assignAll title claims registry).stem? claim.path).isSome := by
  induction claims generalizing registry with
  | nil => exact absurd h List.not_mem_nil
  | cons first rest ih =>
    obtain rfl | hrest := List.mem_cons.1 h
    · have hstem := stem?_assign registry title claim.path claim.kind claim.stem
      have hlater := assignAll_extends title rest _ _ _ hstem
      exact Option.isSome_iff_exists.2 ⟨_, hlater⟩
    · exact ih hrest _

/-- The registry in which nothing is claimed yet but the definitions of a document. -/
def initial (library : Library) (document : Document) : Registry :=
  reserveDefinitions {} library document

/-- The stem that is reserved for a definition. -/
def reservedStem (library : Library) (document : Document) (name : String) : String :=
  ((initial library document).stem?
    (document.schemaPath (document.definitionRef name))).getD ""

theorem Covers.stem?_initial (h : Covers library document name node)
    (hnode : (name, node) ∈ document.definitions) :
    (initial library document).stem? (document.schemaPath (document.definitionRef name)) =
      some (reservedStem library document name) := by
  obtain ⟨claim, hclaim, hpath⟩ := h.exists_claim hnode
  have hstem : ((initial library document).stem? claim.path).isSome :=
    isSome_stem?_assignAll hclaim document.title { reserved := [document.uri] }
  rw [hpath] at hstem
  obtain ⟨stem, hstem⟩ := Option.isSome_iff_exists.1 hstem
  rw [reservedStem, hstem, Option.getD_some]

theorem claimAll_extends (library : Library) (calls : List (Document × Claim))
    (registry : Registry) : registry.Extends (claimAll library calls registry) := by
  induction calls generalizing registry with
  | nil => exact .refl registry
  | cons call rest ih => exact (claim_extends registry _ _ _ _ _).trans (ih _)

/-- After a first claim in the document, its definitions have been reserved in advance. -/
theorem initial_extends_claimAll (library : Library) (document : Document) (first : Claim)
    (calls : List (Document × Claim)) :
    (initial library document).Extends (claimAll library ((document, first) :: calls) {}) :=
  (assign_extends _ _ _ _ _).trans (claimAll_extends library calls _)

/-- The first claim was made in the document. URIs of reserved documents are listed latest first. -/
def StartedIn (document : Document) (registry : Registry) : Prop :=
  registry.reserved.getLast? = some document.uri

theorem reserved_assign (registry : Registry) (title path : String) (kind : SymbolKind)
    (stem : String) : (registry.assign title path kind stem).2.reserved = registry.reserved := by
  unfold assign
  split <;> rfl

theorem reserved_assignAll (title : String) (claims : List Claim) (registry : Registry) :
    (assignAll title claims registry).reserved = registry.reserved := by
  induction claims generalizing registry with
  | nil => rfl
  | cons first rest ih => exact (ih _).trans (reserved_assign registry _ _ _ _)

theorem reserved_claim (registry : Registry) (library : Library) (document : Document)
    (path : String) (kind : SymbolKind) (stem : String) :
    (registry.claim library document path kind stem).2.reserved =
      if registry.reserved.contains document.uri then registry.reserved
      else document.uri :: registry.reserved := by
  rw [claim, reserved_assign, reserveDefinitions]
  split
  · rfl
  · exact reserved_assignAll _ _ _

/-- A run of claims on an empty registry keeps to the stems that were reserved first of all. -/
theorem Grows.started {allowed : Document → String → Prop} {start registry : Registry}
    (h : Grows library allowed start registry) (hstart : start = {}) :
    registry = {} ∨ ∃ first path, allowed first path ∧ registry.StartedIn first ∧
      (initial library first).Extends registry := by
  induction h with
  | refl => exact .inl hstart
  | @claim registry document path _ hallowed kind preferred ih =>
    right
    obtain hempty | ⟨first, place, hfirst, hstarted, hextends⟩ := ih
    · subst hempty
      refine ⟨document, path, hallowed, ?_, assign_extends _ _ _ _ _⟩
      rw [StartedIn, reserved_claim]
      rfl
    · refine ⟨first, place, hfirst, ?_, hextends.trans (claim_extends _ _ _ _ _ _)⟩
      rw [StartedIn] at hstarted ⊢
      rw [reserved_claim]
      split
      · exact hstarted
      · rw [List.getLast?_cons, hstarted, Option.getD_some]

end Registry

/-! ## Runs of generation -/

/-- Documents that references can lead to. -/
def Library.Loaded (library : Library) (document : Document) (_ : String) : Prop :=
  library.get? document.uri = some document

theorem Library.closed_loaded (library : Library) : library.Closed library.Loaded where
  child h _ := h
  target h _ _ _ htarget := get?_of_resolve h htarget

/-- Rules by which a run goes that starts with an empty registry and only claims. -/
def claimRules (library : Library) : Rules where
  holds registry := Registry.Grows library library.Loaded {} registry
  allows _ := True
  allows_fault _ := trivial

theorem Mapping.Claims.obeys_claimRules {α : Type} {library : Library} {mapping : Mapping α}
    (h : mapping.Claims library library.Loaded) :
    Obeys (claimRules library) (fun _ ↦ True) mapping fun _ _ ↦ True := by
  intro session result session' hrun hgrown _
  have hgrows := (h _ _ _ hrun).2
  refine ⟨Registry.Grows.trans hgrown hgrows, hgrows.extends, ?_⟩
  cases result <;> trivial

namespace Emission

variable {library : Library} {α : Type}

/-- The emission makes a run of claims out of a run of claims. -/
abbrev OnlyClaims (library : Library) (emission : Emission α) : Prop :=
  Keeps (claimRules library) (fun _ _ ↦ True) emission

theorem lasts_onlyClaims (library : Library) (runtime : Runtime) (budget : Nat) :
    Lasts (claimRules library) (fun _ _ ↦ True) (fun _ ↦ True)
      (.ofBudget ⟨library, runtime⟩ budget)
      fun v _ ↦ library.get? v.document.uri = some v.document := by
  refine lasts_of_allowing (fun _ ↦ trivial) (fun v scope hv ↦ ?_) fun v scope hv ↦ ?_
  · have hnative : Mapping.Claims library library.Loaded
        (Native.map ⟨library, runtime⟩ budget v.document v.node (v.request scope)) :=
      Native.map_claims library.closed_loaded budget hv v.node
    exact hnative.obeys_claimRules
  · have hwire : Mapping.Claims library library.Loaded
        (Wire.map ⟨library, runtime⟩ budget v.document v.node (v.request scope)) :=
      Wire.map_claims library.closed_loaded budget hv v.node
    exact hwire.obeys_claimRules

end Emission

namespace Generate

open Emission

/-- Something to be done for a document: a definition is mapped or a method is emitted. -/
inductive Task where
  | definition (name : String)
  | method (position : Nat) (declared : Method)

def Task.run (mappers : Mappers) (runtime : Runtime) (document : Document) : Task → Emission Unit
  | definition name => mapDefinition mappers document name
  | method position declared => addMethod mappers runtime ⟨document, position, declared⟩

/-- What is done for a document when it is generated, in this order. -/
def tasks (library : Library) (settings : Settings) (document : Document) : List Task :=
  (standalone library settings document).map .definition ++
    document.methods.zipIdx.map fun entry ↦ .method entry.2 entry.1

variable {library : Library} {document : Document}

theorem emitDocument_eq_tasks (mappers : Mappers) (library : Library) (settings : Settings)
    (document : Document) : emitDocument mappers library settings document =
      (tasks library settings document).forM (Task.run mappers settings.runtime document) := by
  have hmethods : ∀ position (methods : List Method),
      addMethods mappers settings.runtime document position methods =
        ((methods.zipIdx position).map fun entry ↦ Task.method entry.2 entry.1).forM
          (Task.run mappers settings.runtime document) := by
    intro position methods
    induction methods generalizing position with
    | nil => rfl
    | cons method rest ih => simp [addMethods, ih, List.zipIdx_cons, Task.run]
  simp only [emitDocument, tasks, hmethods, List.forM_eq_forM, List.forM_append, List.forM_map,
    Task.run]

theorem run_onlyClaims (runtime : Runtime) (budget : Nat)
    (h : library.get? document.uri = some document) (task : Task) :
    OnlyClaims library
      (task.run (.ofBudget ⟨library, runtime⟩ budget) runtime document) := by
  have hlasts := lasts_onlyClaims library runtime budget
  cases task with
  | definition name => exact keeps_mapDefinition hlasts h
  | method position method =>
    let m : MethodPlace := ⟨document, position, method⟩
    have hschemas : ∀ v, m.Schemas v → library.get? v.document.uri = some v.document := by
      intro v hv
      rw [hv.document_eq]
      exact h
    have hemit : Mapping.Obeys (claimRules library) (fun _ ↦ True)
        (m.emit (.ofBudget ⟨library, runtime⟩ budget) runtime) fun _ _ ↦ True :=
      emit_obeys hlasts (keeps_functions hlasts fun _ _ ↦ trivial) (fun _ _ _ _ ↦ trivial) hschemas
    refine keeps_addMethod (fun _ _ _ _ _ ↦ trivial) hemit fun output emitted ↦ ?_
    apply Mapping.obeys_ofExcept
    intro registry _ _
    cases (output.merge emitted m.path).toExcept <;> trivial

theorem tasks_onlyClaim (runtime : Runtime) (budget : Nat)
    (h : library.get? document.uri = some document) (tasks : List Task) :
    OnlyClaims library
      (tasks.forM (Task.run (.ofBudget ⟨library, runtime⟩ budget) runtime document)) :=
  keeps_forM fun task _ ↦ run_onlyClaims runtime budget h task

theorem documentOutput_onlyClaims (settings : Settings) (budget : Nat)
    (h : library.get? document.uri = some document) :
    Mapping.Obeys (claimRules library) (fun _ ↦ True)
      (documentOutput (.ofBudget ⟨library, settings.runtime⟩ budget) library settings document)
      fun _ _ ↦ True := by
  have hemitted := tasks_onlyClaim settings.runtime budget h (tasks library settings document) {}
  rw [← emitDocument_eq_tasks] at hemitted
  exact hemitted.bind fun _ ↦ Mapping.obeys_pure fun _ _ _ ↦ trivial

/-- A run whose first claim is made in the document keeps to what is reserved for it. -/
theorem initial_extends_of_obeys {α : Type} {mapping : Mapping α} {result : Except Failure α}
    {after : Registry → α → Prop} {session : Session}
    (hobeys : Mapping.Obeys (claimRules library) (fun _ ↦ True) mapping after)
    (h : library.get? document.uri = some document) (hrun : mapping {} = some (result, session))
    (hstarted : session.registry.StartedIn document) :
    (initial library document).Extends session.registry := by
  have hgrown : Grows library library.Loaded {} session.registry :=
    (hobeys hrun (.refl _) trivial).1
  obtain hempty | ⟨first, _, hfirst, hstarted', hextends⟩ := hgrown.started rfl
  · rw [StartedIn, hempty] at hstarted
    cases hstarted
  · have huri : first.uri = document.uri := Option.some.inj (hstarted'.symm.trans hstarted)
    have hsame : first = document := by
      have hloaded : library.get? first.uri = some first := hfirst
      rw [huri, h] at hloaded
      exact (Option.some.inj hloaded).symm
    rwa [hsame] at hextends

/-- Every definition that is covered has one stem. Every claim for its path answers with that stem
in every sequence of claims that starts in the document. Its path has that stem after every run,
failed or not, that maps some definitions of the document and emits some methods, in any order, so
that it does not matter which definitions are left out; the generation of the document is such a
run. -/
theorem definition_names_are_fixed (library : Library) (document : Document) :
    ∃ stems : String → String, ∀ name node, (name, node) ∈ document.definitions →
      Covers library document name node →
      (∀ calls into claim,
        ((calls ++ [(into, claim)]).map Prod.fst).head? = some document →
        claim.path = document.schemaPath (document.definitionRef name) →
        ((claimAll library calls {}).claim library into claim.path claim.kind claim.stem).1 =
          stems name) ∧
      (library.get? document.uri = some document → ∀ runtime budget (tasks : List Task) result session,
        tasks.forM (Task.run (.ofBudget ⟨library, runtime⟩ budget) runtime document) {} {} =
          some (result, session) →
        session.registry.StartedIn document →
        session.registry.stem? (document.schemaPath (document.definitionRef name)) =
          some (stems name)) ∧
      (library.get? document.uri = some document → ∀ settings budget result session,
        documentOutput (.ofBudget ⟨library, settings.runtime⟩ budget) library settings document {} =
          some (result, session) →
        session.registry.StartedIn document →
        session.registry.stem? (document.schemaPath (document.definitionRef name)) =
          some (stems name)) := by
  refine ⟨reservedStem library document, fun name node hnode hcovers ↦ ?_⟩
  have hstem := hcovers.stem?_initial hnode
  refine ⟨?_, ?_, ?_⟩
  · intro calls into claim hstart hpath
    rw [hpath]
    cases calls with
    | nil =>
      have hinto : into = document := Option.some.inj hstart
      rw [hinto]
      exact congrArg Prod.fst (assign_of_stem? hstem _ _ _)
    | cons call rest =>
      obtain ⟨first, claim'⟩ := call
      have hfirst : first = document := Option.some.inj hstart
      rw [hfirst]
      have hlater := initial_extends_claimAll library document claim' rest _ _ hstem
      exact claim_fst_of_stem? hlater _ _ _ _
  · intro hloaded runtime budget tasks result session hrun hstarted
    have hobeys := tasks_onlyClaim runtime budget hloaded tasks {}
    exact initial_extends_of_obeys hobeys hloaded hrun hstarted _ _ hstem
  · intro hloaded settings budget result session hrun hstarted
    have hobeys := documentOutput_onlyClaims settings budget hloaded
    exact initial_extends_of_obeys hobeys hloaded hrun hstarted _ _ hstem

end Generate

namespace InlineFirst

/-- The object in the first definition would like to be called like the second definition. -/
def content : Json := .object [("$id", .string "Types"), ("title", .string "Types"),
  ("definitions", .object [
    ("A", .object [("type", .string "object"), ("properties", .object [
      ("b", .object [("type", .string "object"), ("properties", .object [
        ("x", .object [("type", .string "integer")])])])])]),
    ("A_B", .object [("type", .string "object"), ("properties", .object [
      ("y", .object [("type", .string "number")])])])])]

theorem isSome_read : (Document.read content).toOption.isSome := by decide +kernel

def types : Document := (Document.read content).toOption.get isSome_read

def library : Library := ⟨[types]⟩

def settings : Settings := { pruneUnused := false }

def inline : Claim := ⟨"Types#/definitions/A/properties/b", .object, "A_B"⟩

def second : Claim := ⟨"Types#/definitions/A_B", .object, "A_B"⟩

theorem claim_second : (Registry.claim {} library types second.path second.kind second.stem).1 =
    "A_B" := by
  decide +kernel

/-- The property is mapped before the second definition, in a run that starts in the document. -/
theorem started : ∃ result session,
    Generate.documentOutput (.ofBudget ⟨library, settings.runtime⟩ 8) library settings types {} =
      some (result, session) ∧ session.registry.StartedIn types := by
  have hreserved : ((Generate.documentOutput (.ofBudget ⟨library, settings.runtime⟩ 8) library
      settings types {}).map fun run ↦ run.2.registry.reserved.getLast?) =
        some (some types.uri) := by
    decide +kernel
  obtain ⟨⟨result, session⟩, hrun, hstarted⟩ := Option.map_eq_some_iff.1 hreserved
  exact ⟨result, session, hrun, hstarted⟩

/-- The definition has its name although the property claims first, and in the generated types. -/
theorem second_keeps_its_name :
    ((claimAll library [(types, inline)] {}).claim library types second.path second.kind
      second.stem).1 = "A_B" ∧
    ∃ result session,
      Generate.documentOutput (.ofBudget ⟨library, settings.runtime⟩ 8) library settings types {} =
        some (result, session) ∧ session.registry.stem? second.path = some "A_B" := by
  obtain ⟨stems, hstems⟩ := Generate.definition_names_are_fixed library types
  have hsecond : (Table.get? "A_B" types.definitions).any
      (fun node ↦ (definitionClaim? library types "A_B" node).isSome) = true := by
    decide +kernel
  obtain ⟨node, hnode, hclaim⟩ := Option.any_eq_true _ _ |>.1 hsecond
  obtain ⟨hclaims, -, hgenerated⟩ := hstems "A_B" node (Table.mem_of_get?_eq_some hnode)
    (isSome_definitionClaim?_iff.1 hclaim)
  have hpath : second.path = types.schemaPath (types.definitionRef "A_B") := by decide +kernel
  have hstem : stems "A_B" = "A_B" :=
    (hclaims [] types second rfl hpath).symm.trans claim_second
  obtain ⟨result, session, hrun, hstarted⟩ := started
  have hlibrary : library.get? types.uri = some types := by
    rw [Library.get?, library, List.find?_cons_of_pos (by simp)]
  have hnamed := hgenerated hlibrary settings 8 result session hrun hstarted
  rw [← hpath, hstem] at hnamed
  exact ⟨(hclaims [(types, inline)] types second rfl hpath).trans hstem, result, session, hrun,
    hnamed⟩

end InlineFirst

end SchemaBindings
