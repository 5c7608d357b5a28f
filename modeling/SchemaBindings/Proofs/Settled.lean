import Mathlib.Data.List.Forall2
import SchemaBindings.Proofs.Budget
import SchemaBindings.Proofs.Clashes
import SchemaBindings.Proofs.Handles
import SchemaBindings.Proofs.Replay
import SchemaBindings.Proofs.Visits

/-!
# Code of declared types

What is declared at a path and the stem of the path determine the code of the type, once the types
of its parts are settled: mapped again, with more stems known and no reference being followed, they
come out the same. A registry in which every declared type owns its symbols therefore leaves one
code for a symbol in each section of an output.
-/

namespace SchemaBindings

open Code Mapping

namespace Mapping

variable {α : Type} {library : Library} {registry registry' : Registry}
  {mapping : Nat → Mapping α} {result result' : Except Failure α}

/-- With at least these stems known and no reference being followed, some budget leads to the
result. -/
def Settles (registry : Registry) (mapping : Nat → Mapping α) (result : Except Failure α) : Prop :=
  ∀ ⦃later : Session⦄, later.chain = [] → registry.Extends later.registry →
    ∃ budget later', mapping budget later = some (result, later')

theorem Settles.extends (h : Settles registry mapping result)
    (hextends : registry.Extends registry') : Settles registry' mapping result :=
  fun _ hchain hlater ↦ h hchain (hextends.trans hlater)

theorem stable_settles (mapping : Nat → Mapping α) (result : Except Failure α) :
    Stable fun registry ↦ Settles registry mapping result :=
  fun _ _ h hextends ↦ h.extends hextends

theorem Settles.unique (h : Settles registry mapping result) (h' : Settles registry mapping result')
    (hmono : ∀ {budget budget'}, budget ≤ budget' →
      (mapping budget).Refines (mapping budget')) : result = result' := by
  have hstart : ({ registry := registry } : Session).chain = [] := rfl
  obtain ⟨budget, later, hrun⟩ := h hstart (.refl registry)
  obtain ⟨budget', later', hrun'⟩ := h' hstart (.refl registry)
  exact (Prod.mk.inj (run_unique hmono hrun hrun')).1

theorem not_cyclic_of_isRecoverable {failure : Failure} (h : failure.isRecoverable) :
    ¬Cyclic (.error failure : Except Failure α) := by
  rintro ⟨_, ⟨⟩, hcyclic⟩
  exact Bool.false_ne_true ((Failure.isRecoverable_of_isCyclic hcyclic).symm.trans h)

/-- A run settles what it ends with, unless it is stopped by a cycle. -/
theorem Replays.settles {first : Mapping α} {budget : Nat} {session session' : Session}
    (h : Replays library first (mapping budget)) (hrun : first session = some (result, session'))
    (hresult : ¬Cyclic result) : Settles session'.registry mapping result := by
  intro later hchain hextends
  obtain ⟨later', hlater⟩ := h.replay hrun hextends (.of_chain_nil hchain hresult)
  exact ⟨budget, later', hlater⟩

variable {rules : Rules} {before : Registry → Prop} {after : Registry → α → Prop}

theorem Obeys.settles {first : Mapping α} {budget : Nat} (h : Obeys rules before first after)
    (mapping : Nat → Mapping α) (hreplays : Replays library first (mapping budget)) :
    Obeys rules before first fun registry value ↦
      after registry value ∧ Settles registry mapping (.ok value) := by
  intro session result session' hrun hholds hstart
  obtain ⟨hholds', hextends, hmeets⟩ := h hrun hholds hstart
  refine ⟨hholds', hextends, ?_⟩
  cases result with
  | ok value => exact ⟨hmeets, hreplays.settles hrun (not_cyclic_ok value)⟩
  | error failure => exact hmeets

theorem Obeys.attempt_settles {first : Mapping α} {budget : Nat}
    (h : Obeys rules before first after) (mapping : Nat → Mapping α)
    (hreplays : Replays library first (mapping budget)) :
    Obeys rules before (Mapping.attempt first) fun registry result ↦
      Meets rules after registry result ∧ (¬Cyclic result → Settles registry mapping result) := by
  intro session result session' hrun hholds hstart
  rw [run_attempt] at hrun
  obtain ⟨run, hinner, heq⟩ := Option.map_eq_some_iff.1 hrun
  cases heq
  obtain ⟨hholds', hextends, hmeets⟩ := h hinner hholds hstart
  exact ⟨hholds', hextends, hmeets, hreplays.settles hinner⟩

end Mapping

variable {cx : Context} {registry registry' : Registry} {document : Document} {path stem : String}

/-! ## Parts of objects -/

namespace Native

/-- The type of a property and the access to it, or why it has none. -/
def SettlesProperty (cx : Context) (registry : Registry) (document : Document) (parent : Parent)
    (schema : ObjectSchema) (path : String) (entry : String × Node)
    (result : Except Failure (NativeType × AccessorGroup)) : Prop :=
  Settles registry (fun budget ↦ property cx (map cx budget) document parent
    (schema.isOptional entry.1) entry.1 entry.2
    ((⟨"", "", path⟩ : Request).property parent.stem entry.1)) result

theorem settlesProperty_unique {parent : Parent} {schema : ObjectSchema} :
    Relator.RightUnique (SettlesProperty cx registry document parent schema path) :=
  fun _ _ _ h h' ↦ h.unique h' fun hle ↦
    property_related _ (relates_map cx hle) rfl _ _ _ _

/-- The accessors of the properties that have types. -/
def groups (results : List (Except Failure (NativeType × AccessorGroup))) : List AccessorGroup :=
  results.filterMap fun result ↦ result.toOption.map (·.2)

end Native

namespace Wire

/-- The member of a container class for a property, or why there is none. -/
def SettlesMember (cx : Context) (registry : Registry) (document : Document) (stem path : String)
    (entry : String × Node) (result : Except Failure Member) : Prop :=
  ∃ type, Settles registry (fun budget ↦ map cx budget document entry.2
    ((⟨"", "", path⟩ : Request).property stem entry.1)) type ∧
    result = type.map fun type ↦ ⟨entry.1, type.name⟩

theorem settlesMember_unique :
    Relator.RightUnique (SettlesMember cx registry document stem path) := by
  rintro entry result result' ⟨type, h, rfl⟩ ⟨type', h', rfl⟩
  rw [h.unique h' fun hle ↦ map_refines cx hle _ _ _]

/-- The members for the properties that have types. -/
def members (results : List (Except Failure Member)) : List Member :=
  results.filterMap Except.toOption

end Wire

/-! ## Code -/

/-- The object that the properties at a path belong to. -/
def Native.Parent.of (cx : Context) (document : Document) (stem : String) : Native.Parent :=
  ⟨Names.qualified document.title stem, Names.qualified document.title stem ++ "Handle",
    cx.runtime.wireContainer document.title stem, stem⟩

namespace Declared

/-- Name and accessors of the handle of a declared type. -/
inductive Handles (cx : Context) (registry : Registry) (document : Document) (path stem : String) :
    Declared → String → List AccessorGroup → Prop
  | object {schema : ObjectSchema} {results : List (Except Failure (NativeType × AccessorGroup))}
      (h : List.Forall₂ (Native.SettlesProperty cx registry document
        (Native.Parent.of cx document stem) schema path) schema.members results) :
      Handles cx registry document path stem (.object schema)
        (Names.qualified document.title stem ++ "Handle")
        (Access.lifecycle cx.runtime (Names.qualified document.title stem ++ "Handle")
          (cx.runtime.wireContainer document.title stem) :: Native.groups results)
  | map {additional : Node} {value : NativeType}
      (h : Settles registry (fun budget ↦ Native.map cx budget document additional
        ((⟨"", "", path⟩ : Request).mapValue stem)) (.ok value)) :
      Handles cx registry document path stem (.map additional)
        (Names.qualified document.title stem ++ "Handle") [
          Access.lifecycle cx.runtime (Names.qualified document.title stem ++ "Handle")
            cx.runtime.wireMap,
          Access.entries cx.runtime (Names.qualified document.title stem) cx.runtime.wireMap
            value.valueType]
  | array {item : Node} {name : String} {element : NativeType}
      (h : Settles registry (fun budget ↦ Native.map cx budget document item
        ⟨name, "", Pointer.child path "items"⟩) (.ok element)) :
      Handles cx registry document path stem (.array item name)
        (Names.qualified document.title stem ++ "Array" ++ "Handle") [
          Access.lifecycle cx.runtime (Names.qualified document.title stem ++ "Array" ++ "Handle")
            (cx.runtime.wireArray element.wire),
          Access.elements cx.runtime (Names.qualified document.title stem ++ "Array")
            (Names.qualified document.title stem ++ "Array" ++ "Handle")
            (cx.runtime.wireArray element.wire) none element.valueType]

/-- Code of a declared type: the pieces under a symbol of a section. -/
inductive Emits (cx : Context) (registry : Registry) (document : Document) (path stem : String) :
    Declared → Section → String → List Piece → Prop
  | enumeration {label : String} {description : Option String} {values : List String} :
      Emits cx registry document path stem (.enumeration label description values) .enums
        (Names.qualified document.title stem)
        [.enumeration ⟨Names.qualified document.title stem, label, description, values⟩]
  | conversion {label : String} {description : Option String} {values : List String} :
      Emits cx registry document path stem (.enumeration label description values) .conversions
        (Names.qualified document.title stem)
        [.conversion ⟨Names.qualified document.title stem, label, description, values⟩]
  | declaration {d : Declared} {handle : String} {groups : List AccessorGroup}
      (h : Handles cx registry document path stem d handle groups) :
      Emits cx registry document path stem d .declarations handle [.declared groups]
  | definition {d : Declared} {handle : String} {groups : List AccessorGroup}
      (h : Handles cx registry document path stem d handle groups) :
      Emits cx registry document path stem d .definitions handle [.defined groups]
  | container {schema : ObjectSchema} {results : List (Except Failure Member)}
      (h : List.Forall₂ (Wire.SettlesMember cx registry document stem path) schema.members
        results) :
      Emits cx registry document path stem (.object schema) .containers
        (Names.containerClass stem)
        [.container ⟨Names.containerClass stem, cx.runtime.jsonType "Container",
          Wire.members results⟩]

section

variable {d : Declared} {handle symbol : String} {groups groups' : List AccessorGroup}
  {place : Section} {pieces pieces' : List Piece}

theorem Handles.extends (h : d.Handles cx registry document path stem handle groups)
    (hextends : registry.Extends registry') :
    d.Handles cx registry' document path stem handle groups := by
  cases h with
  | object h => exact .object (h.imp fun _ _ hentry ↦ hentry.extends hextends)
  | map h => exact .map (h.extends hextends)
  | array h => exact .array (h.extends hextends)

theorem Handles.unique {handle' : String}
    (h : d.Handles cx registry document path stem handle groups)
    (h' : d.Handles cx registry document path stem handle' groups') : groups = groups' := by
  cases h with
  | object h =>
    cases h' with
    | object h' => rw [Native.settlesProperty_unique.forall₂ h h']
  | map h =>
    cases h' with
    | map h' =>
      cases h.unique h' fun hle ↦ Native.map_refines cx hle _ _ _
      rfl
  | array h =>
    cases h' with
    | array h' =>
      cases h.unique h' fun hle ↦ Native.map_refines cx hle _ _ _
      rfl

theorem Handles.mem_symbols (h : d.Handles cx registry document path stem handle groups) :
    handle ∈ d.kind.symbols document.title stem := by
  cases h with
  | object => exact .head _
  | map => exact .head _
  | array =>
    rw [String.append_assoc]
    exact .head _

theorem Emits.extends (h : d.Emits cx registry document path stem place symbol pieces)
    (hextends : registry.Extends registry') :
    d.Emits cx registry' document path stem place symbol pieces := by
  cases h with
  | enumeration => exact .enumeration
  | conversion => exact .conversion
  | declaration h => exact .declaration (h.extends hextends)
  | definition h => exact .definition (h.extends hextends)
  | container h =>
    refine .container (h.imp ?_)
    rintro entry _ ⟨type, htype, rfl⟩
    exact ⟨type, htype.extends hextends, rfl⟩

/-- A type has one code in a section. -/
theorem Emits.unique {symbol' : String}
    (h : d.Emits cx registry document path stem place symbol pieces)
    (h' : d.Emits cx registry document path stem place symbol' pieces') : pieces = pieces' := by
  cases h with
  | enumeration => cases h'; rfl
  | conversion => cases h'; rfl
  | declaration h =>
    cases h' with
    | declaration h' => rw [h.unique h']
  | definition h =>
    cases h' with
    | definition h' => rw [h.unique h']
  | container h =>
    cases h' with
    | container h' => rw [Wire.settlesMember_unique.forall₂ h h']

/-- Code stands under a symbol of its type, but for the container class of an object. -/
theorem Emits.mem_symbols (h : d.Emits cx registry document path stem place symbol pieces)
    (hplace : place ≠ .containers) : symbol ∈ d.kind.symbols document.title stem := by
  cases h with
  | enumeration => exact .head _
  | conversion => exact .head _
  | declaration h => exact h.mem_symbols
  | definition h => exact h.mem_symbols
  | container => exact absurd rfl hplace

theorem Emits.containers (h : d.Emits cx registry document path stem .containers symbol pieces) :
    symbol = Names.containerClass stem ∧
      Names.qualified document.title stem ∈ d.kind.symbols document.title stem := by
  cases h
  exact ⟨rfl, .tail _ (.head _)⟩

/-- Types that have code under one symbol of a section have a symbol in common. -/
theorem Emits.exists_common {d' : Declared} {path' stem' : String}
    (h : d.Emits cx registry document path stem place symbol pieces)
    (h' : d'.Emits cx registry document path' stem' place symbol pieces') :
    ∃ common, common ∈ d.kind.symbols document.title stem ∧
      common ∈ d'.kind.symbols document.title stem' := by
  by_cases hplace : place = .containers
  · subst hplace
    obtain ⟨hsymbol, hmem⟩ := h.containers
    obtain ⟨hsymbol', hmem'⟩ := h'.containers
    cases Names.containerClass_injective (hsymbol.symm.trans hsymbol')
    exact ⟨_, hmem, hmem'⟩
  · exact ⟨symbol, h.mem_symbols hplace, h'.mem_symbols hplace⟩

end

end Declared

/-! ## Explained fragments -/

/-- The fragment is code of a type that is declared in the document. -/
inductive Explains (cx : Context) (roots : Visit → Prop) (document : Document)
    (registry : Registry) : Section → String → Fragment → Prop
  | intro {v : Visit} {d : Declared} {stem symbol : String} {place : Section}
      {pieces : List Piece} (hv : Visited cx.library roots v) (hdocument : v.document = document)
      (hdeclared : v.declared? = some d) (hstem : registry.stem? v.path = some stem)
      (hcode : d.Emits cx registry document v.path stem place symbol pieces) :
      Explains cx roots document registry place symbol (.ofPieces pieces)

section

variable {roots : Visit → Prop} {place : Section} {symbol : String} {code code' : Fragment}

theorem Explains.extends (h : Explains cx roots document registry place symbol code)
    (hextends : registry.Extends registry') :
    Explains cx roots document registry' place symbol code := by
  obtain ⟨hv, hdocument, hdeclared, hstem, hcode⟩ := h
  exact .intro hv hdocument hdeclared (hextends _ _ hstem) (hcode.extends hextends)

/-- In a sound registry of tidy schemas there is one code for a symbol. -/
theorem Explains.unique (htidy : Tidy cx.library roots)
    (hsound : registry.Sound cx.library roots)
    (h : Explains cx roots document registry place symbol code)
    (h' : Explains cx roots document registry place symbol code') : code = code' := by
  obtain @⟨v, d, stem, _, _, pieces, hv, rfl, hdeclared, hstem, hcode⟩ := h
  obtain @⟨v', d', stem', _, _, pieces', hv', hdocument, hdeclared', hstem', hcode'⟩ := h'
  -- whose symbol they have in common is at the path of both
  obtain ⟨common, hmem, hmem'⟩ := hcode.exists_common hcode'
  rw [← hdocument] at hmem'
  have howner := hsound.owner? htidy hv hdeclared hstem hmem
  rw [hsound.owner? htidy hv' hdeclared' hstem' hmem'] at howner
  have hpath : v'.path = v.path := Option.some.inj howner
  rw [hpath] at hstem' hcode'
  obtain ⟨-, rfl⟩ := htidy.alike hv hv' hdeclared hdeclared' hpath.symm
  cases hstem.symm.trans hstem'
  rw [hcode.unique hcode']

end

end SchemaBindings
