import SchemaBindings.Proofs.Sites

/-!
# Preferred stems

In orderly documents one stem is preferred for a path: that of the definition there or that of the
site. A registry without renamed paths has no other stems. This goes for every claim at a site,
since a document reserves the stems of its definitions first, and a site without a reserved stem
claims its own. What is known if no path is renamed may therefore be taken for granted in the rest
of a mapping, since a path that is renamed once remains so.
-/

namespace SchemaBindings

open Mapping

variable {library : Library} {documents : List Document}

/-- A stem that is preferred for a path: it is reserved by a definition, or it is that of a site. -/
inductive Prefers (library : Library) (documents : List Document) : String → String → Prop
  | reserved {document : Document} {claim : Registry.Claim} (hdocument : document ∈ documents)
      (h : claim ∈ Registry.definitionClaims library document) :
      Prefers library documents claim.path claim.stem
  | site {origin : Origin} {steps : List Step} {s : Site} {stem : String}
      (h : Site.At library documents origin steps s) (hstem : s.Stem library stem) :
      Prefers library documents s.path stem

namespace Prefers

variable (hlibrary : library.Orderly documents) {path stem stem' : String}
include hlibrary

/-- A definition that reserves a stem is an origin. -/
theorem exists_place {document : Document} (hdocument : document ∈ documents)
    {claim : Registry.Claim} (h : claim ∈ Registry.definitionClaims library document) :
    ∃ origin : Origin, claim.path = origin.place document.title [] := by
  obtain ⟨name, node, -, hclaim⟩ := Registry.exists_of_mem_definitionClaims h
  obtain ⟨root, written, hslash, href⟩ :=
    Document.definitionRef_eq (hlibrary.read document hdocument) name
  refine ⟨.definition root written hslash, ?_⟩
  rw [Registry.path_of_definitionClaim? hclaim, href]
  simp [Document.schemaPath, Origin.place, Origin.path, String.append_assoc]

/-- A stem that is reserved at the path of a site is the stem of the site. -/
theorem stem_of_reserved {document : Document} (hdocument : document ∈ documents)
    {claim : Registry.Claim} (h : claim ∈ Registry.definitionClaims library document)
    {origin : Origin} {steps : List Step} {s : Site} (hs : Site.At library documents origin steps s)
    (hpath : claim.path = s.path) : s.Stem library claim.stem := by
  obtain ⟨origin', hplace⟩ := exists_place hlibrary hdocument h
  rw [hplace, hs.path_eq] at hpath
  obtain ⟨htitle, -, -⟩ := Origin.place_injective hpath
  obtain rfl := hlibrary.eq_of_title _ hdocument _ hs.document_mem htitle
  exact .reserved h (hplace.trans (hpath.trans hs.path_eq.symm))

theorem stem_of_site (h : Prefers library documents path stem) {origin : Origin}
    {steps : List Step} {s : Site} (hs : Site.At library documents origin steps s)
    (hpath : path = s.path) : s.Stem library stem := by
  cases h with
  | reserved hdocument h => exact stem_of_reserved hlibrary hdocument h hs hpath
  | site h hstem => rwa [← h.eq_of_path hlibrary hs hpath]

/-- One stem is preferred for a path. -/
theorem unique (h : Prefers library documents path stem)
    (h' : Prefers library documents path stem') : stem = stem' := by
  cases h' with
  | site hs hstem =>
    exact (h.stem_of_site hlibrary hs rfl).unique hlibrary hs.document_mem hstem
  | @reserved document' claim' hdocument' hclaim' =>
    generalize hpath : claim'.path = path at h
    cases h with
    | site hs hstem =>
      have hreserved := stem_of_reserved hlibrary hdocument' hclaim' hs hpath
      exact hstem.unique hlibrary hs.document_mem hreserved
    | reserved hdocument hclaim =>
      obtain ⟨origin, hplace⟩ := exists_place hlibrary hdocument hclaim
      obtain ⟨origin', hplace'⟩ := exists_place hlibrary hdocument' hclaim'
      obtain ⟨htitle, -, -⟩ := Origin.place_injective (hplace'.symm.trans (hpath.trans hplace))
      obtain rfl := hlibrary.eq_of_title _ hdocument' _ hdocument htitle
      rw [Site.eq_of_mem_definitionClaims hlibrary hdocument hclaim hclaim' hpath.symm]

end Prefers

/-! ## Registries without renamed paths -/

namespace Registry

variable {registry registry' : Registry} {title path stem : String} {kind : SymbolKind}
  {claims : List Claim}

theorem Extends.isSome_stem? (h : registry.Extends registry')
    (hstem : (registry.stem? path).isSome) : (registry'.stem? path).isSome := by
  obtain ⟨stem, hstem⟩ := Option.isSome_iff_exists.1 hstem
  exact Option.isSome_iff_exists.2 ⟨stem, h path stem hstem⟩

theorem renamed_assign (h : (registry.assign title path kind stem).2.renamed = []) :
    registry.renamed = [] := by
  unfold assign at h
  split at h
  · exact h
  · dsimp only at h
    split at h
    · exact h
    · cases h

theorem renamed_assignAll (h : (assignAll title claims registry).renamed = []) :
    registry.renamed = [] := by
  induction claims generalizing registry with
  | nil => exact h
  | cons claim rest ih => exact renamed_assign (ih h)

theorem renamed_reserveDefinitions {document : Document}
    (h : (registry.reserveDefinitions library document).renamed = []) : registry.renamed = [] := by
  unfold reserveDefinitions at h
  split at h
  · exact h
  · have hreserved := renamed_assignAll h
    exact hreserved

/-- A path that has been renamed remains so. -/
theorem Grows.renamed {allowed : Document → String → Prop}
    (h : Grows library allowed registry registry') (hrenamed : registry'.renamed = []) :
    registry.renamed = [] := by
  induction h with
  | refl => exact hrenamed
  | claim _ _ kind preferred ih => exact ih (renamed_reserveDefinitions (renamed_assign hrenamed))

/-- A path that is not renamed gets the stem that it claims. -/
theorem assign_fst_of_renamed (hpath : registry.stem? path = none)
    (h : (registry.assign title path kind stem).2.renamed = []) :
    (registry.assign title path kind stem).1 = stem := by
  unfold stem? at hpath
  unfold assign at h ⊢
  rw [hpath] at h ⊢
  dsimp only at h ⊢
  split at h
  · assumption
  · cases h

/-- All stems are preferred ones, and documents that have reserved stems have reserved all of
them. -/
structure Faithful (library : Library) (documents : List Document) (registry : Registry) :
    Prop where
  prefers : ∀ path stem, registry.stem? path = some stem → Prefers library documents path stem
  isSome_reserved : ∀ document ∈ documents, document.uri ∈ registry.reserved →
    ∀ claim ∈ definitionClaims library document, (registry.stem? claim.path).isSome

theorem faithful_empty : Faithful library documents {} where
  prefers _ _ h := nomatch h
  isSome_reserved _ _ h := nomatch h

/-- Another assignment of a stem that is preferred. -/
theorem prefers_assign
    (hprefers : ∀ path stem, registry.stem? path = some stem → Prefers library documents path stem)
    (hrenamed : (registry.assign title path kind stem).2.renamed = [])
    (h : registry.stem? path = none → Prefers library documents path stem) {other found : String}
    (hfound : (registry.assign title path kind stem).2.stem? other = some found) :
    Prefers library documents other found := by
  cases hpath : registry.stem? path with
  | some claimed =>
    rw [assign_of_stem? hpath] at hfound
    exact hprefers other found hfound
  | none =>
    by_cases hother : path = other
    · subst hother
      rw [stem?_assign, assign_fst_of_renamed hpath hrenamed] at hfound
      cases hfound
      exact h hpath
    · rw [stem?_assign_of_ne hother] at hfound
      exact hprefers other found hfound

theorem prefers_assignAll
    (hprefers : ∀ path stem, registry.stem? path = some stem → Prefers library documents path stem)
    (hrenamed : (assignAll title claims registry).renamed = [])
    (h : ∀ claim ∈ claims, Prefers library documents claim.path claim.stem) (path stem : String)
    (hstem : (assignAll title claims registry).stem? path = some stem) :
    Prefers library documents path stem := by
  induction claims generalizing registry with
  | nil => exact hprefers path stem hstem
  | cons claim rest ih =>
    obtain ⟨hclaim, hrest⟩ := List.forall_mem_cons.1 h
    refine ih (fun _ _ hfound ↦ ?_) hrenamed hrest hstem
    exact prefers_assign hprefers (renamed_assignAll hrenamed) (fun _ ↦ hclaim) hfound

namespace Faithful

variable (hlibrary : library.Orderly documents) (h : registry.Faithful library documents)
  {document : Document} (hdocument : document ∈ documents)
include hlibrary h hdocument

theorem reserveDefinitions
    (hrenamed : (registry.reserveDefinitions library document).renamed = []) :
    (registry.reserveDefinitions library document).Faithful library documents ∧
      document.uri ∈ (registry.reserveDefinitions library document).reserved := by
  unfold Registry.reserveDefinitions at hrenamed ⊢
  split at hrenamed
  case isTrue hreserved =>
    rw [if_pos hreserved]
    exact ⟨h, List.contains_iff_mem.1 hreserved⟩
  case isFalse hreserved =>
    rw [if_neg hreserved]
    refine ⟨⟨?_, fun other hother huri claim hclaim ↦ ?_⟩, ?_⟩
    · exact prefers_assignAll h.prefers hrenamed fun claim hclaim ↦ .reserved hdocument hclaim
    · rw [reserved_assignAll] at huri
      obtain heq | hmem := List.mem_cons.1 huri
      · rw [hlibrary.eq_of_uri other hother document hdocument heq] at hclaim
        exact isSome_stem?_assignAll hclaim _ _
      · have hsome := h.isSome_reserved other hother hmem claim hclaim
        exact Extends.isSome_stem? (assignAll_extends _ _ _) hsome
    · rw [reserved_assignAll]
      exact List.mem_cons_self

/-- A claim at a path without a reserved stem is for a preferred one. -/
theorem claim (hrenamed : (registry.claim library document path kind stem).2.renamed = [])
    (hprefers : (∀ claim ∈ definitionClaims library document, claim.path ≠ path) →
      Prefers library documents path stem) :
    (registry.claim library document path kind stem).2.Faithful library documents := by
  obtain ⟨hfaithful, hreserved⟩ := h.reserveDefinitions hlibrary hdocument (renamed_assign hrenamed)
  refine ⟨fun _ _ hfound ↦ ?_, fun other hother huri claim hclaim ↦ ?_⟩
  · refine prefers_assign hfaithful.prefers hrenamed (fun hnone ↦ hprefers ?_) hfound
    rintro claim hclaim rfl
    have hsome := hfaithful.isSome_reserved document hdocument hreserved claim hclaim
    rw [hnone] at hsome
    cases hsome
  · rw [Registry.claim, reserved_assign] at huri
    exact (assign_extends _ _ _ _ _).isSome_stem?
      (hfaithful.isSome_reserved other hother huri claim hclaim)

end Faithful

end Registry

/-! ## Mappings that keep to preferred stems -/

/-- Registries have preferred stems only, unless paths are renamed. -/
def preferenceRules (library : Library) (documents : List Document) : Rules where
  holds registry := registry.renamed = [] → registry.Faithful library documents
  allows _ := True
  allows_fault _ := trivial

namespace Mapping

variable {α β : Type}

/-- From a registry with preferred stems the mapping comes to another one. -/
abbrev KeepsTo (library : Library) (documents : List Document) (mapping : Mapping α) : Prop :=
  Obeys (preferenceRules library documents) (fun _ ↦ True) mapping fun _ _ ↦ True

theorem keepsTo_pure (value : α) : KeepsTo library documents (pure value) :=
  obeys_pure fun _ _ _ ↦ trivial

theorem keepsTo_fail (failure : Failure) : KeepsTo library documents (fail failure : Mapping α) :=
  obeys_fail fun _ _ ↦ trivial

theorem keepsTo_ofExcept_bind {result : Except Failure α} {next : α → Mapping β}
    (h : ∀ value, result = .ok value → KeepsTo library documents (next value)) :
    KeepsTo library documents (ofExcept result >>= next) :=
  obeys_ofExcept_bind (fun _ _ ↦ trivial) h

theorem keepsTo_ite_warn (failure : Failure) (value : α) :
    KeepsTo library documents
      (if failure.isRecoverable then warn >>= fun _ ↦ pure value else fail failure) :=
  obeys_ite_warn (fun _ _ _ _ ↦ trivial) fun _ _ _ ↦ trivial

theorem keepsTo_attempt_bind {mapping : Mapping α} {next : Except Failure α → Mapping β}
    (h : KeepsTo library documents mapping)
    (hnext : ∀ result, KeepsTo library documents (next result)) :
    KeepsTo library documents (attempt mapping >>= next) :=
  (h.attempt rfl).bind fun result ↦ (hnext result).imp (fun _ _ ↦ trivial) fun _ _ _ ↦ trivial

theorem keepsTo_foldlM {step : β → α → Mapping β} {xs : List α} {start : β}
    (h : ∀ soFar, ∀ x ∈ xs, KeepsTo library documents (step soFar x)) :
    KeepsTo library documents (xs.foldlM step start) := by
  induction xs generalizing start with
  | nil => exact keepsTo_pure start
  | cons x rest ih =>
    obtain ⟨hx, hrest⟩ := forall_and.1 fun soFar ↦ List.forall_mem_cons.1 (h soFar)
    rw [List.foldlM_cons]
    exact (hx start).bind fun _ ↦ ih hrest

/-- What is known of a value if no path has been renamed is taken for granted in the rest. -/
theorem Obeys.bind_of_renamed {mapping : Mapping α} {next : α → Mapping β}
    {allowed : Document → String → Prop} {known : α → Prop}
    (h : Obeys (preferenceRules library documents) (fun _ ↦ True) mapping
      fun registry value ↦ registry.renamed = [] → known value)
    (hclaims : ∀ value, (next value).Claims library allowed)
    (hnext : ∀ value, known value → KeepsTo library documents (next value)) :
    KeepsTo library documents (mapping >>= next) := by
  refine h.bind fun value session result session' hrun hholds hstart ↦ ?_
  by_cases hknown : known value
  · exact hnext value hknown hrun hholds trivial
  · have hgrows := (hclaims value _ _ _ hrun).2
    refine ⟨fun hrenamed ↦ absurd (hstart (hgrows.renamed hrenamed)) hknown, hgrows.extends, ?_⟩
    cases result <;> trivial

end Mapping

/-- A claim at a site answers with the stem of the site. -/
theorem Site.claim_keepsTo (hlibrary : library.Orderly documents) {origin : Origin}
    {steps : List Step} {s : Site} (hs : Site.At library documents origin steps s) {v : Visit}
    (hshows : s.Shows library v) (hplain : ¬v.node.IsComposition) {label : String}
    (hcalled : v.Called library label) (kind : SymbolKind) :
    Obeys (preferenceRules library documents) (fun _ ↦ True)
      ((v.request s.scope).claim library v.document kind label)
      fun registry stem ↦ registry.renamed = [] → s.Stem library stem := by
  obtain ⟨hdocument, -, hpath⟩ := hshows.same
  intro session result session' hrun hholds _
  unfold Request.claim Visit.request at hrun
  rw [run_claim, hdocument, hpath] at hrun
  cases hrun
  have hfaithful : (session.registry.claim library s.document s.path kind
      (Names.nested s.scope label)).2.renamed = [] →
        (session.registry.claim library s.document s.path kind
          (Names.nested s.scope label)).2.Faithful library documents := by
    intro hrenamed
    have hbefore := hholds (Registry.renamed_reserveDefinitions (Registry.renamed_assign hrenamed))
    exact hbefore.claim hlibrary hs.document_mem hrenamed fun hfree ↦
      .site hs (.own hfree hshows hplain hcalled)
  refine ⟨hfaithful, Registry.claim_extends _ _ _ _ _ _, fun hrenamed ↦ ?_⟩
  have hprefers := (hfaithful hrenamed).prefers _ _ (Registry.stem?_claim _ _ _ _ _ _)
  exact hprefers.stem_of_site hlibrary hs rfl

/-- What follows a claim at a site goes on with the stem of the site. -/
theorem Site.claim_bind_keepsTo {α : Type} (hlibrary : library.Orderly documents) {origin : Origin}
    {steps : List Step} {s : Site} (hs : Site.At library documents origin steps s) {v : Visit}
    (hshows : s.Shows library v) (hplain : ¬v.node.IsComposition) {label : String}
    (hcalled : v.Called library label) (kind : SymbolKind) {next : String → Mapping α}
    (hclaims : ∀ stem, (next stem).Claims library fun _ _ ↦ True)
    (hnext : ∀ stem, s.Stem library stem → KeepsTo library documents (next stem)) :
    KeepsTo library documents
      ((v.request s.scope).claim library v.document kind label >>= next) :=
  (s.claim_keepsTo hlibrary hs hshows hplain hcalled kind).bind_of_renamed hclaims hnext

end SchemaBindings
