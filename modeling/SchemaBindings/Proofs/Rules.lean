import SchemaBindings.Proofs.Composition
import SchemaBindings.Proofs.Faults
import SchemaBindings.Proofs.Growth

/-!
# Rules of mappings

A calculus for what mappings bring about. Its statements say: started in a registry with one
property, a mapping ends in a registry and a value with another one, or in a failure that is
allowed. The registry satisfies an invariant all the time, and stems that it has are kept. Each
operation that mappings are built from has one rule, so that a mapping is gone through once, in
the order in which it is written.
-/

namespace SchemaBindings

/-- What holds of every registry of a run, and which failures the run may end in. Faults of
schemas are always allowed. -/
structure Rules where
  holds : Registry → Prop
  allows : Failure → Prop
  allows_fault : ∀ {failure}, failure.isFault → allows failure

/-- Rules by which every mapping goes that only claims stems. -/
def freeRules : Rules where
  holds _ := True
  allows _ := True
  allows_fault _ := trivial

namespace Mapping

variable {α β : Type} {rules : Rules} {before : Registry → Prop} {after : Registry → α → Prop}
  {last : Registry → β → Prop}

/-- The result is a value with the property or an allowed failure. -/
def Meets (rules : Rules) (after : Registry → α → Prop) (registry : Registry) :
    Except Failure α → Prop
  | .ok value => after registry value
  | .error failure => rules.allows failure

/-- From registries with the first property the mapping only comes to registries and values with
the second one. -/
def Obeys (rules : Rules) (before : Registry → Prop) (mapping : Mapping α)
    (after : Registry → α → Prop) : Prop :=
  ∀ ⦃session : Session⦄ ⦃result : Except Failure α⦄ ⦃session' : Session⦄,
    mapping session = some (result, session') → rules.holds session.registry →
      before session.registry →
        rules.holds session'.registry ∧ session.registry.Extends session'.registry ∧
          Meets rules after session'.registry result

theorem meets_of_allows {result : Except Failure α} {registry : Registry}
    (hfails : ∀ failure, result = .error failure → rules.allows failure)
    (h : ∀ value, result = .ok value → after registry value) :
    Meets rules after registry result := by
  cases result with
  | ok value => exact h value rfl
  | error failure => exact hfails failure rfl

theorem Obeys.imp {before' : Registry → Prop} {after' : Registry → α → Prop}
    {mapping : Mapping α} (h : Obeys rules before mapping after)
    (hbefore : ∀ registry, before' registry → before registry)
    (hafter : ∀ registry value, after registry value → after' registry value) :
    Obeys rules before' mapping after' := by
  intro session result session' hrun hholds hstart
  obtain ⟨hholds', hextends, hmeets⟩ := h hrun hholds (hbefore _ hstart)
  refine ⟨hholds', hextends, ?_⟩
  cases result with
  | ok value => exact hafter _ value hmeets
  | error failure => exact hmeets

/-- A property of registries that stays when stems are added. -/
def Stable (property : Registry → Prop) : Prop :=
  ∀ ⦃registry registry'⦄, property registry → registry.Extends registry' → property registry'

theorem stable_true : Stable fun _ ↦ True := fun _ _ _ _ ↦ trivial

theorem Stable.and {first second : Registry → Prop} (h : Stable first) (h' : Stable second) :
    Stable fun registry ↦ first registry ∧ second registry :=
  fun _ _ hboth hextends ↦ ⟨h hboth.1 hextends, h' hboth.2 hextends⟩

theorem stable_stem? (path stem : String) :
    Stable fun registry ↦ registry.stem? path = some stem :=
  fun _ _ hstem hextends ↦ hextends path stem hstem

/-- What is known beforehand and stays is known afterwards as well. -/
theorem Obeys.frame {mapping : Mapping α} {kept : Registry → Prop}
    (h : Obeys rules before mapping after) (hkept : Stable kept) :
    Obeys rules (fun registry ↦ before registry ∧ kept registry) mapping
      fun registry value ↦ after registry value ∧ kept registry := by
  intro session result session' hrun hholds hstart
  obtain ⟨hholds', hextends, hmeets⟩ := h hrun hholds hstart.1
  refine ⟨hholds', hextends, ?_⟩
  cases result with
  | ok value => exact ⟨hmeets, hkept hstart.2 hextends⟩
  | error failure => exact hmeets

/-- What is known and stays is still known after a mapping that asks for nothing. -/
theorem Obeys.keep {mapping : Mapping α} {kept : Registry → Prop}
    (h : Obeys rules (fun _ ↦ True) mapping after) (hkept : Stable kept) :
    Obeys rules kept mapping fun registry value ↦ after registry value ∧ kept registry :=
  (h.frame hkept).imp (fun _ hstart ↦ ⟨trivial, hstart⟩) fun _ _ hend ↦ hend

theorem obeys_ofExcept {result : Except Failure α}
    (h : ∀ registry, rules.holds registry → before registry →
      Meets rules after registry result) : Obeys rules before (ofExcept result) after := by
  intro session found session' hrun hholds hstart
  rw [run_ofExcept] at hrun
  cases hrun
  exact ⟨hholds, .refl _, h _ hholds hstart⟩

theorem obeys_pure {value : α}
    (h : ∀ registry, rules.holds registry → before registry → after registry value) :
    Obeys rules before (pure value) after := by
  have hobeys : Obeys rules before (ofExcept (.ok value)) after := obeys_ofExcept h
  exact hobeys

theorem obeys_fail {failure : Failure}
    (h : ∀ registry, before registry → rules.allows failure) :
    Obeys rules before (fail failure : Mapping α) after := by
  have hobeys : Obeys rules before (ofExcept (.error failure) : Mapping α) after :=
    obeys_ofExcept fun registry _ hstart ↦ h registry hstart
  exact hobeys

/-- What is known by other rules, which hold of every registry, is known besides. -/
theorem Obeys.and {mapping : Mapping α} {rules' : Rules} {after' : Registry → α → Prop}
    (h : Obeys rules before mapping after) (h' : Obeys rules' before mapping after')
    (hholds : ∀ registry, rules'.holds registry) :
    Obeys rules before mapping fun registry value ↦
      after registry value ∧ after' registry value := by
  intro session result session' hrun hstart hbefore
  obtain ⟨hend, hextends, hmeets⟩ := h hrun hstart hbefore
  obtain ⟨-, -, hmeets'⟩ := h' hrun (hholds _) hbefore
  refine ⟨hend, hextends, ?_⟩
  cases result with
  | ok value => exact ⟨hmeets, hmeets'⟩
  | error failure => exact hmeets

theorem obeys_exhausted : Obeys rules before (exhausted : Mapping α) after :=
  fun _ _ _ h ↦ nomatch h

theorem obeys_warn : Obeys rules before warn fun registry _ ↦ before registry := by
  rintro session result session' ⟨⟩ hholds hstart
  exact ⟨hholds, .refl _, hstart⟩

theorem obeys_claim {library : Library} {document : Document} {path stem : String}
    {kind : SymbolKind} (hstable : Stable before)
    (h : ∀ registry, rules.holds registry →
      rules.holds (registry.claim library document path kind stem).2) :
    Obeys rules before (claim library document path kind stem) fun registry claimed ↦
      registry.stem? path = some claimed ∧ before registry := by
  intro session result session' hrun hholds hstart
  rw [run_claim] at hrun
  cases hrun
  have hextends := Registry.claim_extends session.registry library document path kind stem
  exact ⟨h _ hholds, hextends, Registry.stem?_claim _ _ _ _ _ _, hstable hstart hextends⟩

theorem Obeys.bind {mapping : Mapping α} {next : α → Mapping β}
    (h : Obeys rules before mapping after)
    (hnext : ∀ value, Obeys rules (fun registry ↦ after registry value) (next value) last) :
    Obeys rules before (mapping >>= next) last := by
  intro session result session' hrun hholds hstart
  obtain ⟨value, between, hfirst, hsecond⟩ | ⟨failure, hfirst, rfl⟩ := bind_eq_some.1 hrun
  · obtain ⟨hbetween, hextends, hmeets⟩ := h hfirst hholds hstart
    obtain ⟨hholds', hextends', hmeets'⟩ := hnext value hsecond hbetween hmeets
    exact ⟨hholds', hextends.trans hextends', hmeets'⟩
  · exact h hfirst hholds hstart

/-- A failure that can be recovered from is warned of, and any other one is passed on. -/
theorem obeys_ite_warn {failure : Failure} {value : α}
    (hwarned : failure.isRecoverable = true →
      ∀ registry, rules.holds registry → before registry → after registry value)
    (hfails : failure.isRecoverable = false → ∀ registry, before registry → rules.allows failure) :
    Obeys rules before
      (if failure.isRecoverable then warn >>= fun _ ↦ pure value else fail failure) after := by
  split
  · exact obeys_warn.bind fun _ ↦ obeys_pure (hwarned ‹_›)
  · exact obeys_fail (hfails (Bool.eq_false_iff.2 ‹_›))

/-- A computation without effects, whose failures are allowed. -/
theorem obeys_ofExcept_bind {result : Except Failure α} {next : α → Mapping β}
    (hfails : ∀ failure, result = .error failure → rules.allows failure)
    (h : ∀ value, result = .ok value → Obeys rules before (next value) last) :
    Obeys rules before (ofExcept result >>= next) last := by
  have hresult : Obeys rules before (ofExcept result) fun registry value ↦
      result = .ok value ∧ before registry :=
    obeys_ofExcept fun registry _ hstart ↦ meets_of_allows hfails fun value hvalue ↦
      ⟨hvalue, hstart⟩
  refine hresult.bind fun value session found session' hrun hholds hstart ↦ ?_
  exact h value hstart.1 hrun hholds hstart.2

theorem obeys_faults_bind {result : Except Failure α} {next : α → Mapping β}
    (hfaults : Faults result)
    (h : ∀ value, result = .ok value → Obeys rules before (next value) last) :
    Obeys rules before (ofExcept result >>= next) last :=
  obeys_ofExcept_bind (fun failure hfailure ↦ rules.allows_fault (hfaults failure hfailure).1) h

/-- An attempt succeeds whatever the mapping comes to, so that other failures may be allowed. -/
theorem Obeys.attempt {mapping : Mapping α} (h : Obeys rules before mapping after) {rules' : Rules}
    (hholds : rules'.holds = rules.holds) :
    Obeys rules' before (attempt mapping) (Meets rules after) := by
  intro session result session' hrun hstart
  rw [run_attempt] at hrun
  obtain ⟨run, hinner, heq⟩ := Option.map_eq_some_iff.1 hrun
  cases heq
  rw [hholds] at hstart ⊢
  exact h hinner hstart

theorem Obeys.following {body : Mapping α} (h : Obeys rules before body after)
    (key path : String) : Obeys rules before (following key path body) after := by
  intro session result session' hrun hholds hstart
  by_cases hkey : key ∈ session.chain
  · rw [run_following, if_pos hkey] at hrun
    cases hrun
    exact ⟨hholds, .refl _, rules.allows_fault rfl⟩
  · obtain ⟨last, hbody, rfl⟩ := following_eq_some hkey hrun
    have hends := h hbody hholds hstart
    exact hends

/-- A list is gone through in order, with an invariant about the elements done so far. -/
theorem obeys_foldlM {step : β → α → Mapping β} {invariant : List α → β → Registry → Prop}
    {xs : List α} {start : β}
    (h : ∀ done x rest, xs = done ++ x :: rest → ∀ soFar,
      Obeys rules (invariant done soFar) (step soFar x) fun registry value ↦
        invariant (done ++ [x]) value registry) :
    Obeys rules (invariant [] start) (xs.foldlM step start) fun registry value ↦
      invariant xs value registry := by
  have hfold : ∀ rest done start, xs = done ++ rest →
      Obeys rules (invariant done start) (rest.foldlM step start) fun registry value ↦
        invariant xs value registry := by
    intro rest
    induction rest with
    | nil =>
      intro done start hxs
      rw [List.append_nil] at hxs
      subst hxs
      exact obeys_pure fun _ _ hstart ↦ hstart
    | cons x rest ih =>
      intro done start hxs
      rw [List.foldlM_cons]
      exact (h done x rest hxs start).bind fun soFar ↦ ih (done ++ [x]) soFar (by simp [hxs])
  exact hfold xs [] start rfl

end Mapping

open Mapping

variable {rules : Rules} {library : Library}

theorem Mapping.Claims.obeys {α : Type} {allowed : Document → String → Prop} {mapping : Mapping α}
    (h : mapping.Claims library allowed) :
    Obeys freeRules (fun _ ↦ True) mapping fun _ _ ↦ True := by
  intro session result session' hrun _ _
  refine ⟨trivial, (h _ _ _ hrun).2.extends, ?_⟩
  cases result <;> exact trivial

/-! ## Compositions -/

/-- Mappings that ask for nothing and promise nothing but to keep to the rules. As a relation, this
asks nothing of the second mapping. -/
def obedience (rules : Rules) : Relation where
  holds mapping _ := Obeys rules (fun _ ↦ True) mapping fun _ _ ↦ True
  more := 0
  exhausted _ _ := obeys_exhausted
  faults hfaults := obeys_ofExcept fun _ _ _ ↦ meets_of_allows
    (fun failure hfailure ↦ rules.allows_fault (hfaults failure hfailure).1) fun _ _ ↦ trivial
  bind := .bind
  following := .following

theorem mergeAllOf_obeys_true (budget : Nat) (document : Document) (outer : Node)
    (members : List Node) (path : String) :
    Obeys rules (fun _ ↦ True) (mergeAllOf library budget document outer members path)
      fun _ _ ↦ True :=
  mergeAllOf_related (obedience rules) library budget document outer members path

/-- A composition that is merged leaves the registry alone, and merges in the same way where no
reference is being followed. -/
theorem mergeAllOf_obeys {before : Registry → Prop} (budget : Nat) (document : Document)
    (outer : Node) (members : List Node) (path : String) :
    Obeys rules before (mergeAllOf library budget document outer members path)
      fun registry merged ↦ before registry ∧
        mergeAllOf library budget document outer members path {} = some (.ok merged, {}) := by
  intro session result session' hrun hholds hstart
  have hstatic := mergeAllOf_static library budget document outer members path
  obtain ⟨hsame, -⟩ := hstatic.run_of_chain_eq hrun rfl
  have hmeets := (mergeAllOf_obeys_true budget document outer members path hrun hholds trivial).2.2
  subst hsame
  refine ⟨hholds, .refl _, ?_⟩
  cases result with
  | ok merged => exact ⟨hstart, hstatic.run_of_chain_subset hrun (List.nil_subset _)⟩
  | error failure => exact hmeets

end SchemaBindings
