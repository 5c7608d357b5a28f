import SchemaBindings.Proofs.Relations

/-!
# What a mapping does to its session

A mapping gives the chain of references back as it found it and changes the registry by claims
alone. Each claim is made for a document and a path; where they may lie is left open by a
predicate that is kept on the way to the parts of a schema and to the target of a reference. No
claim changes a stem that a path has already.
-/

namespace SchemaBindings

namespace Registry

/-- The stem of the schema at a path, once it has one. -/
def stem? (registry : Registry) (path : String) : Option String :=
  Table.get? path registry.stems

/-- Every path that has a stem keeps it. -/
def Extends (registry registry' : Registry) : Prop :=
  ∀ path stem, registry.stem? path = some stem → registry'.stem? path = some stem

theorem Extends.refl (registry : Registry) : registry.Extends registry :=
  fun _ _ h ↦ h

theorem Extends.trans {first second third : Registry} (h₁ : first.Extends second)
    (h₂ : second.Extends third) : first.Extends third :=
  fun path stem h ↦ h₂ path stem (h₁ path stem h)

theorem assign_of_stem? {registry : Registry} {path stem : String}
    (h : registry.stem? path = some stem) (title : String) (kind : SymbolKind)
    (preferred : String) : registry.assign title path kind preferred = (stem, registry) := by
  unfold stem? at h
  unfold assign
  rw [h]

theorem stem?_assign (registry : Registry) (title path : String) (kind : SymbolKind)
    (preferred : String) :
    (registry.assign title path kind preferred).2.stem? path =
      some (registry.assign title path kind preferred).1 := by
  cases h : registry.stem? path with
  | some stem =>
    rw [assign_of_stem? h]
    exact h
  | none =>
    unfold stem? at h
    unfold assign stem?
    rw [h]
    exact if_pos rfl

theorem assign_extends (registry : Registry) (title path : String) (kind : SymbolKind)
    (preferred : String) : registry.Extends (registry.assign title path kind preferred).2 := by
  intro other stem h
  cases hpath : registry.stem? path with
  | some claimed =>
    rw [assign_of_stem? hpath]
    exact h
  | none =>
    have hne : path ≠ other := by
      rintro rfl
      rw [h] at hpath
      cases hpath
    unfold stem? at hpath h ⊢
    unfold assign
    rw [hpath]
    exact (if_neg hne).trans h

theorem assignAll_extends (title : String) (claims : List Claim) (registry : Registry) :
    registry.Extends (assignAll title claims registry) := by
  induction claims generalizing registry with
  | nil => exact .refl registry
  | cons claim rest ih => exact (assign_extends registry _ _ _ _).trans (ih _)

theorem reserveDefinitions_extends (registry : Registry) (library : Library)
    (document : Document) : registry.Extends (registry.reserveDefinitions library document) := by
  unfold reserveDefinitions
  split
  · exact .refl registry
  · exact assignAll_extends _ _ { registry with reserved := document.uri :: registry.reserved }

theorem claim_extends (registry : Registry) (library : Library) (document : Document)
    (path : String) (kind : SymbolKind) (preferred : String) :
    registry.Extends (registry.claim library document path kind preferred).2 :=
  (reserveDefinitions_extends registry library document).trans (assign_extends _ _ _ _ _)

theorem stem?_claim (registry : Registry) (library : Library) (document : Document)
    (path : String) (kind : SymbolKind) (preferred : String) :
    (registry.claim library document path kind preferred).2.stem? path =
      some (registry.claim library document path kind preferred).1 :=
  stem?_assign _ _ _ _ _

theorem claim_fst_of_stem? {registry : Registry} {path stem : String}
    (h : registry.stem? path = some stem) (library : Library) (document : Document)
    (kind : SymbolKind) (preferred : String) :
    (registry.claim library document path kind preferred).1 = stem := by
  have hclaimed := stem?_claim registry library document path kind preferred
  rw [claim_extends registry library document path kind preferred path stem h] at hclaimed
  exact (Option.some.inj hclaimed).symm

/-- One registry comes from another by claims for documents and paths that are allowed. -/
inductive Grows (library : Library) (allowed : Document → String → Prop) :
    Registry → Registry → Prop
  | refl (registry : Registry) : Grows library allowed registry registry
  | claim {registry registry' : Registry} {document : Document} {path : String}
      (h : Grows library allowed registry registry') (hallowed : allowed document path)
      (kind : SymbolKind) (preferred : String) :
      Grows library allowed registry
        (registry'.claim library document path kind preferred).2

variable {library : Library} {allowed : Document → String → Prop}

theorem Grows.trans {first second third : Registry} (h₁ : Grows library allowed first second)
    (h₂ : Grows library allowed second third) : Grows library allowed first third := by
  induction h₂ with
  | refl => exact h₁
  | claim _ hallowed kind preferred ih => exact .claim ih hallowed kind preferred

theorem Grows.extends {registry registry' : Registry}
    (h : Grows library allowed registry registry') : registry.Extends registry' := by
  induction h with
  | refl => exact .refl registry
  | claim _ _ kind preferred ih => exact ih.trans (claim_extends _ _ _ _ _ _)

end Registry

/-- Documents and paths that are left neither for the parts of a schema nor along a reference. -/
structure Library.Closed (library : Library) (allowed : Document → String → Prop) : Prop where
  child : ∀ {document path}, allowed document path → ∀ step,
    allowed document (Pointer.child path step)
  target : ∀ {document path}, allowed document path → ∀ {reference place target},
    library.resolve document reference place = .ok target → allowed target.owner target.path

theorem Library.closed_true (library : Library) : library.Closed fun _ _ ↦ True :=
  ⟨fun _ _ ↦ trivial, fun _ _ _ _ _ ↦ trivial⟩

namespace Mapping

variable {α β : Type} {library : Library} {allowed : Document → String → Prop}

/-- The mapping gives back the chain, and the registry grows by allowed claims. -/
def Claims (library : Library) (allowed : Document → String → Prop) (mapping : Mapping α) :
    Prop :=
  ∀ session result session', mapping session = some (result, session') →
    session'.chain = session.chain ∧
      Registry.Grows library allowed session.registry session'.registry

theorem claims_pure (value : α) : Claims library allowed (pure value) := by
  rintro session _ _ ⟨⟩
  exact ⟨rfl, .refl _⟩

theorem claims_fail (failure : Failure) : Claims library allowed (fail failure : Mapping α) := by
  rintro session _ _ ⟨⟩
  exact ⟨rfl, .refl _⟩

theorem claims_ofExcept (result : Except Failure α) :
    Claims library allowed (ofExcept result) := by
  cases result with
  | ok value => exact claims_pure value
  | error failure => exact claims_fail failure

theorem claims_warn : Claims library allowed warn := by
  rintro session _ _ ⟨⟩
  exact ⟨rfl, .refl _⟩

theorem claims_exhausted : Claims library allowed (exhausted : Mapping α) :=
  fun _ _ _ h ↦ nomatch h

theorem Claims.bind {mapping : Mapping α} {next : α → Mapping β}
    (h : Claims library allowed mapping) (hnext : ∀ value, Claims library allowed (next value)) :
    Claims library allowed (mapping >>= next) := by
  intro session result session' hrun
  obtain ⟨value, between, hfirst, hsecond⟩ | ⟨failure, hfirst, -⟩ := bind_eq_some.1 hrun
  · obtain ⟨hchain, hgrows⟩ := h _ _ _ hfirst
    obtain ⟨hchain', hgrows'⟩ := hnext value _ _ _ hsecond
    exact ⟨hchain'.trans hchain, hgrows.trans hgrows'⟩
  · exact h _ _ _ hfirst

theorem claims_claim {document : Document} {path : String} (h : allowed document path)
    (kind : SymbolKind) (stem : String) :
    Claims library allowed (claim library document path kind stem) := by
  intro session result session' hrun
  rw [run_claim] at hrun
  cases hrun
  exact ⟨rfl, .claim (.refl _) h kind stem⟩

theorem Claims.attempt {mapping : Mapping α} (h : Claims library allowed mapping) :
    Claims library allowed (attempt mapping) := by
  intro session result session' hrun
  rw [run_attempt] at hrun
  obtain ⟨run, hinner, heq⟩ := Option.map_eq_some_iff.1 hrun
  cases heq
  exact h _ _ _ hinner

theorem Claims.following {body : Mapping α} (h : Claims library allowed body)
    (key path : String) : Claims library allowed (following key path body) := by
  intro session result session' hrun
  by_cases hkey : key ∈ session.chain
  · rw [run_following, if_pos hkey] at hrun
    cases hrun
    exact ⟨rfl, .refl _⟩
  · obtain ⟨after, hbody, rfl⟩ := following_eq_some hkey hrun
    obtain ⟨hchain, hgrows⟩ := h _ _ _ hbody
    rw [Session.chain_push] at hchain
    exact ⟨by rw [Session.chain_pop, hchain]; rfl, hgrows⟩

/-- As a relation, this asks nothing of the second mapping. -/
def growth (library : Library) (allowed : Document → String → Prop) : Relation where
  holds mapping _ := Claims library allowed mapping
  more := 0
  exhausted _ _ := claims_exhausted
  faults _ := claims_ofExcept _
  bind := .bind
  following := .following

/-- The places where a mapper may claim. -/
def mapperGrowth (hclosed : library.Closed allowed) : MapperRelation library where
  toRelation := growth library allowed
  places document path _ _ := allowed document path
  child hplace := hclosed.child hplace
  inside hplace _ := hplace
  target hplace _ _ _ htarget := hclosed.target hplace htarget
  ofExcept := claims_ofExcept
  warn := claims_warn
  claim hplace kind _ := claims_claim hplace kind _
  attempt_bind h hnext _ := h.attempt.bind hnext

theorem Claims.foldlM {step : β → α → Mapping β}
    (h : ∀ soFar x, Claims library allowed (step soFar x)) (xs : List α) (start : β) :
    Claims library allowed (xs.foldlM step start) := by
  have hstep : ∀ soFar x, (growth library allowed).holds (step soFar x) (step soFar x) := h
  exact (growth library allowed).foldlM hstep xs start

end Mapping

open Mapping

variable {library : Library} {allowed : Document → String → Prop}

theorem mergeAllOf_claims (budget : Nat) (document : Document) (outer : Node)
    (members : List Node) (path : String) :
    Claims library allowed (mergeAllOf library budget document outer members path) :=
  mergeAllOf_related (growth library allowed) library budget document outer members path

theorem Request.claims_claim {document : Document} {request : Request}
    (h : allowed document request.path) (kind : SymbolKind) (label : String) :
    Claims library allowed (request.claim library document kind label) :=
  Mapping.claims_claim h kind _

theorem Request.claim_eq_ok {document : Document} {request : Request} {kind : SymbolKind}
    {label stem : String} {session session' : Session}
    (h : request.claim library document kind label session = some (.ok stem, session')) :
    session'.chain = session.chain ∧ session.registry.Extends session'.registry ∧
      session'.registry.stem? request.path = some stem := by
  have hrun : request.claim library document kind label session = _ :=
    run_claim _ _ _ _ _ session
  rw [hrun] at h
  cases h
  exact ⟨rfl, Registry.claim_extends _ _ _ _ _ _, Registry.stem?_claim _ _ _ _ _ _⟩

/-- A mapper that only claims, wherever a schema is. -/
theorem relates_of_claims {α : Type} {mapper : Document → Node → Request → Mapping α}
    (h : ∀ document node request, Claims library (fun _ _ ↦ True) (mapper document node request)) :
    (mapperGrowth library.closed_true).Relates mapper mapper :=
  fun _ ↦ h _ _ _

theorem places_any {document : Document} (request : Request) :
    (mapperGrowth library.closed_true).places document request.path request.scope request.scope :=
  trivial

variable {cx : Context} {document : Document} {request : Request}

namespace Native

/-- Mapping a schema to its native type claims at the path of the request and beyond it. -/
theorem map_claims (hclosed : cx.library.Closed allowed) (budget : Nat)
    (hallowed : allowed document request.path) (node : Node) :
    Claims cx.library allowed (map cx budget document node request) := by
  have hplace : (mapperGrowth hclosed).places document request.path request.scope request.scope :=
    hallowed
  exact map_related (mapperGrowth hclosed) budget hplace node

/-- Wherever the schema is, mapping it only claims. -/
theorem map_claims_any (cx : Context) (budget : Nat) (document : Document) (node : Node)
    (request : Request) : (map cx budget document node request).Claims cx.library fun _ _ ↦ True :=
  map_claims cx.library.closed_true budget trivial node

section Parts

variable {mapper : Mapper} (h : ∀ document node request,
  Claims cx.library (fun _ _ ↦ True) (mapper document node request))

include h

theorem property_claims (parent : Parent) (isOptional : Bool) (name : String) (node : Node) :
    Claims cx.library (fun _ _ ↦ True)
      (property cx mapper document parent isOptional name node request) :=
  property_related _ (relates_of_claims h) (places_any request) parent isOptional name node

theorem addProperty_claims (parent : Parent) (schema : ObjectSchema) (soFar : Gathered)
    (entry : String × Node) :
    Claims cx.library (fun _ _ ↦ True)
      (addProperty cx mapper document parent schema request soFar entry) :=
  addProperty_related _ (relates_of_claims h) (places_any request) parent schema soFar entry

end Parts

theorem addProperty_claims_any (budget : Nat) (parent : Parent) (schema : ObjectSchema)
    (soFar : Gathered) (entry : String × Node) :
    (addProperty cx (map cx budget) document parent schema request soFar entry).Claims cx.library
      fun _ _ ↦ True :=
  addProperty_claims (map_claims_any cx budget) parent schema soFar entry

end Native

namespace Wire

/-- Mapping a schema to its wire type claims at the path of the request and beyond it. -/
theorem map_claims (hclosed : cx.library.Closed allowed) (budget : Nat)
    (hallowed : allowed document request.path) (node : Node) :
    Claims cx.library allowed (map cx budget document node request) := by
  have hplace : (mapperGrowth hclosed).places document request.path request.scope request.scope :=
    hallowed
  exact map_related (mapperGrowth hclosed) budget hplace node

/-- Wherever the schema is, mapping it only claims. -/
theorem map_claims_any (cx : Context) (budget : Nat) (document : Document) (node : Node)
    (request : Request) : (map cx budget document node request).Claims cx.library fun _ _ ↦ True :=
  map_claims cx.library.closed_true budget trivial node

theorem addMember_claims {mapper : Mapper} (h : ∀ document node request,
      Claims cx.library (fun _ _ ↦ True) (mapper document node request))
    (stem : String) (soFar : Gathered) (entry : String × Node) :
    Claims cx.library (fun _ _ ↦ True) (addMember mapper document stem request soFar entry) :=
  addMember_related _ (relates_of_claims h) (places_any request) stem soFar entry

theorem addMember_claims_any (budget : Nat) (stem : String) (soFar : Gathered)
    (entry : String × Node) :
    (addMember (map cx budget) document stem request soFar entry).Claims cx.library
      fun _ _ ↦ True :=
  addMember_claims (map_claims_any cx budget) stem soFar entry

end Wire

end SchemaBindings
