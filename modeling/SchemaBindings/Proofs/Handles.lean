import Mathlib.Data.List.Forall2
import SchemaBindings.Binding.Native
import SchemaBindings.Proofs.Outputs

/-!
# Handles and containers

An object stands in two outputs: natively as a handle with accessors, on the wire as a container
class with members. The outputs agree on it if the accessors go to the members one by one, in the
same order, and with the same types. Agreement is kept when outputs are merged and when code that
belongs together is inserted on both sides.
-/

namespace SchemaBindings

open Code

theorem addAllNew_addNew {α : Type} [DecidableEq α] (seen others : List α) (x : α) :
    addAllNew seen (addNew others x) = addNew (addAllNew seen others) x := by
  unfold addNew
  by_cases h : x ∈ others
  · rw [if_pos h, if_pos (mem_addAllNew.2 (.inr h))]
  · rw [if_neg h]
    unfold addAllNew
    rw [List.foldl_append]
    rfl

/-- Elements that were collected on their own are added as if they were added one by one. -/
theorem addAllNew_addAllNew {α : Type} [DecidableEq α] (seen collected others : List α) :
    addAllNew seen (addAllNew collected others) = addAllNew (addAllNew seen collected) others := by
  induction others generalizing collected with
  | nil => rfl
  | cons x rest ih =>
    calc addAllNew seen (addAllNew collected (x :: rest))
        = addAllNew (addAllNew seen (addNew collected x)) rest := ih (addNew collected x)
      _ = addAllNew (addAllNew seen collected) (x :: rest) := by
        rw [addAllNew_addNew]
        rfl

namespace Access

/-- The accessors of the object `base` that lead to a member of its container: those of a property
with the wire type of the member, or those of the elements of an array that the member is. -/
inductive Gives (runtime : Runtime) (base container : String) : AccessorGroup → Member → Prop
  | property (m : Member) (native : String) (shape : Shape) (options : PropertyOptions) :
      Gives runtime base container
        (property runtime base container m.property ⟨native, m.type, shape⟩ options) m
  | elements (m : Member) (element : ValueType) (h : m.type = runtime.wireArray element.wire) :
      Gives runtime base container
        (elements runtime (base ++ "_" ++ m.identifier ++ "Array") (base ++ "Handle") container
          (some (m.property, m.identifier)) element) m

end Access

/-- The two sections that the code of a handle stands in, and the piece it is there. -/
inductive HandleCode : Section → (List AccessorGroup → Piece) → Prop
  | declared : HandleCode .declarations .declared
  | defined : HandleCode .definitions .defined

theorem HandleCode.injective {place : Section} {code : List AccessorGroup → Piece}
    (h : HandleCode place code) {groups groups' : List AccessorGroup}
    (heq : code groups = code groups') : groups = groups' := by
  cases h <;> cases heq <;> rfl

/-- The symbol of the handle of an object with this stem. -/
def Names.objectHandle (title stem : String) : String := qualified title stem ++ "Handle"

theorem Names.objectHandle_injective {title stem stem' : String}
    (h : objectHandle title stem = objectHandle title stem') : stem = stem' := by
  unfold objectHandle qualified at h
  rw [String.append_left_inj] at h
  exact String.append_right_inj _ |>.1 h

theorem Names.containerClass_injective {stem stem' : String}
    (h : containerClass stem = containerClass stem') : stem = stem' :=
  (String.append_right_inj _).1 h

/-- The accessors behind a handle, after those of its life, lead to properties. -/
def OfProperties (groups : List AccessorGroup) : Prop := ∀ group ∈ groups, group.property?.isSome

/-- Every object of a native output has its container in the wire output with a member for each
of its accessors, and there are no other containers. -/
structure ObjectsAgree (runtime : Runtime) (title : String) (native wire : Output) : Prop where
  container : ∀ {place code}, HandleCode place code → ∀ {stem fragment life groups},
    native.find? place (Names.objectHandle title stem) = some fragment →
      fragment.pieces = [code (life :: groups)] → OfProperties groups →
        ∃ found c, wire.find? .containers (Names.containerClass stem) = some found ∧
          found.pieces = [.container c] ∧ c.name = Names.containerClass stem ∧
          List.Forall₂ (Access.Gives runtime (Names.qualified title stem)
            (runtime.wireContainer title stem)) groups c.members
  handle : ∀ {place code}, HandleCode place code → ∀ {stem found},
    wire.find? .containers (Names.containerClass stem) = some found →
      ∃ fragment, native.find? place (Names.objectHandle title stem) = some fragment

namespace ObjectsAgree

variable {runtime : Runtime} {title : String} {native wire native' wire' : Output}

theorem congr (h : ObjectsAgree runtime title native wire)
    (hnative : ∀ {place code}, HandleCode place code →
      ∀ symbol, native'.find? place symbol = native.find? place symbol)
    (hwire : ∀ symbol, wire'.find? .containers symbol = wire.find? .containers symbol) :
    ObjectsAgree runtime title native' wire' where
  container {place code} hcode {stem fragment life groups} hfragment hpieces hproperties := by
    rw [hnative hcode] at hfragment
    rw [hwire]
    exact h.container hcode hfragment hpieces hproperties
  handle {place code} hcode {stem found} hfound := by
    rw [hwire] at hfound
    rw [hnative hcode]
    exact h.handle hcode hfound

theorem of_none (hnative : ∀ {place code}, HandleCode place code →
      ∀ symbol, native.find? place symbol = none)
    (hwire : ∀ symbol, wire.find? .containers symbol = none) :
    ObjectsAgree runtime title native wire where
  container {place code} hcode {stem fragment life groups} hfragment hpieces hproperties := by
    rw [hnative hcode] at hfragment
    cases hfragment
  handle {place code} hcode {stem found} hfound := by
    rw [hwire] at hfound
    cases hfound

/-- There is no container without a handle. -/
theorem find?_container_eq_none (h : ObjectsAgree runtime title native wire) {place : Section}
    {code : List AccessorGroup → Piece} (hcode : HandleCode place code) {stem : String}
    (hnone : native.find? place (Names.objectHandle title stem) = none) :
    wire.find? .containers (Names.containerClass stem) = none := by
  cases hclass : wire.find? .containers (Names.containerClass stem) with
  | none => rfl
  | some found =>
    obtain ⟨fragment, hhandle⟩ := h.handle hcode hclass
    rw [hnone] at hhandle
    cases hhandle

/-- What is there first stays, on both sides. -/
theorem or {other other' : Output} (h : ObjectsAgree runtime title native wire)
    (hother : ObjectsAgree runtime title other other')
    (hnative : ∀ {place code}, HandleCode place code → ∀ symbol,
      native'.find? place symbol = (native.find? place symbol).or (other.find? place symbol))
    (hwire : ∀ symbol, wire'.find? .containers symbol =
      (wire.find? .containers symbol).or (other'.find? .containers symbol)) :
    ObjectsAgree runtime title native' wire' where
  container {place code} hcode {stem fragment life groups} hfragment hpieces hproperties := by
    rw [hnative hcode] at hfragment
    rw [hwire]
    cases hfirst : native.find? _ (Names.objectHandle title stem) with
    | some first =>
      rw [hfirst] at hfragment
      cases hfragment
      obtain ⟨found, c, hfound, hrest⟩ := h.container hcode hfirst hpieces hproperties
      exact ⟨found, c, by rw [hfound]; rfl, hrest⟩
    | none =>
      rw [hfirst] at hfragment
      rw [h.find?_container_eq_none hcode hfirst]
      exact hother.container hcode hfragment hpieces hproperties
  handle {place code} hcode {stem found} hfound := by
    rw [hwire] at hfound
    rw [hnative hcode]
    cases hclass : wire.find? .containers (Names.containerClass stem) with
    | some old =>
      obtain ⟨first, hhandle⟩ := h.handle hcode hclass
      exact ⟨first, by rw [hhandle]; rfl⟩
    | none =>
      rw [hclass] at hfound
      obtain ⟨second, hsecond⟩ := hother.handle hcode hfound
      cases hfirst : native.find? _ (Names.objectHandle title stem) with
      | some first => exact ⟨first, rfl⟩
      | none => exact ⟨second, hsecond⟩

end ObjectsAgree

/-- A handle is declared first and then defined. -/
theorem Native.addHandle_inserts {output result : Output} {handle path : String}
    {groups : List AccessorGroup} (h : addHandle output handle groups path = .ok result) :
    ∃ between, (output.insert .declarations handle [.declared groups] path).toExcept =
        .ok between ∧
      (between.insert .definitions handle [.defined groups] path).toExcept = .ok result := by
  unfold addHandle at h
  obtain ⟨hfailure, hvalue⟩ := Attempt.toExcept_eq_ok.1 h
  obtain ⟨hfirst, hsecond, heq⟩ := Attempt.andThen_failure hfailure
  rw [heq] at hvalue
  exact ⟨_, Attempt.toExcept_eq_ok.2 ⟨hfirst, rfl⟩, Attempt.toExcept_eq_ok.2 ⟨hsecond, hvalue⟩⟩

theorem Native.addHandle_eq_ok {output result : Output} {handle path : String}
    {groups : List AccessorGroup} (h : addHandle output handle groups path = .ok result) :
    result.diagnostics = output.diagnostics ∧ result.externals = output.externals ∧
      ∀ {place code}, HandleCode place code → ∀ symbol,
        result.find? place symbol = (output.find? place symbol).or
          (if handle = symbol then some (.ofPieces [code groups]) else none) := by
  obtain ⟨between, hfirst, hsecond⟩ := addHandle_inserts h
  obtain ⟨hdiagnostics, hexternals, hfind⟩ := Output.insert_eq_ok hfirst
  obtain ⟨hdiagnostics', hexternals', hfind'⟩ := Output.insert_eq_ok hsecond
  refine ⟨hdiagnostics'.trans hdiagnostics, hexternals'.trans hexternals, ?_⟩
  intro place code hcode symbol
  rw [hfind', hfind]
  cases hcode <;> simp

theorem Native.addHandle_collides {output : Output} {handle path : String}
    {groups : List AccessorGroup} {failure : Failure}
    (h : addHandle output handle groups path = .error failure) : failure.isCollision := by
  refine Attempt.Collides.toExcept ?_ h
  exact (Output.insert_collides _ _ _ _ _).andThen fun _ ↦ Output.insert_collides _ _ _ _ _

/-- A native and a wire output agree. -/
structure Output.Agree (runtime : Runtime) (title : String) (native wire : Output) : Prop where
  diagnostics : native.diagnostics = wire.diagnostics
  externals : native.externals = wire.externals
  objects : ObjectsAgree runtime title native wire

/-- Two outputs make the same difference to outputs that agree. -/
structure Output.AddsSame (runtime : Runtime) (title : String) (native wire : Output) : Prop where
  diagnostics : ∀ seen, addAllNew seen native.diagnostics = addAllNew seen wire.diagnostics
  externals : ∀ seen, addAllNew seen native.externals = addAllNew seen wire.externals
  objects : ObjectsAgree runtime title native wire

namespace Output.Agree

variable {runtime : Runtime} {title : String} {native wire native' wire' : Output}

theorem addsSame (h : Agree runtime title native wire) : AddsSame runtime title native wire where
  diagnostics _ := by rw [h.diagnostics]
  externals _ := by rw [h.externals]
  objects := h.objects

theorem empty : Agree runtime title {} {} :=
  ⟨rfl, rfl, .of_none (fun hcode _ ↦ by cases hcode <;> rfl) fun _ ↦ rfl⟩

theorem merge {other other' : Output} {path path' : String} (h : Agree runtime title native wire)
    (hother : AddsSame runtime title other other')
    (hnative : (native.merge other path).toExcept = .ok native')
    (hwire : (wire.merge other' path').toExcept = .ok wire') :
    Agree runtime title native' wire' := by
  obtain ⟨hdiagnostics, hexternals, hfind⟩ := merge_eq_ok hnative
  obtain ⟨hdiagnostics', hexternals', hfind'⟩ := merge_eq_ok hwire
  exact {
    diagnostics := by rw [hdiagnostics, hdiagnostics', h.diagnostics, hother.diagnostics]
    externals := by rw [hexternals, hexternals', h.externals, hother.externals]
    objects := h.objects.or hother.objects (fun _ symbol ↦ hfind _ symbol) fun symbol ↦
      hfind' _ symbol }

/-- An output that was merged into an empty one makes the same difference as before. -/
theorem addsSame_merge_empty {path : String} (h : Agree runtime title native wire)
    (hwire : (Output.merge {} wire path).toExcept = .ok wire') :
    AddsSame runtime title native wire' := by
  obtain ⟨hdiagnostics, hexternals, hfind⟩ := merge_eq_ok hwire
  exact {
    diagnostics := fun seen ↦ by
      rw [hdiagnostics, addAllNew_addAllNew, h.diagnostics]
      rfl
    externals := fun seen ↦ by
      rw [hexternals, addAllNew_addAllNew, h.externals]
      rfl
    objects := h.objects.congr (fun _ _ ↦ rfl) fun symbol ↦ by
      rw [hfind]
      rfl }

theorem addDiagnostic (h : Agree runtime title native wire) (diagnostic : Diagnostic) :
    Agree runtime title (native.addDiagnostic diagnostic) (wire.addDiagnostic diagnostic) where
  diagnostics := congrArg (addNew · diagnostic) h.diagnostics
  externals := h.externals
  objects := h.objects.congr
    (fun hcode _ ↦ by cases hcode <;> rfl) fun _ ↦ rfl

theorem external (h : Agree runtime title native wire) (title' owner : String) :
    Agree runtime title' { externals := addNew native.externals owner }
      { externals := addNew wire.externals owner } :=
  ⟨rfl, congrArg (addNew · owner) h.externals,
    .of_none (fun hcode _ ↦ by cases hcode <;> rfl) fun _ ↦ rfl⟩

/-- The handle of a map or an array, which has no container. -/
theorem addHandle {handle path : String} {life group : AccessorGroup}
    (h : Agree runtime title native wire) (hgroup : group.property? = none)
    (hnative : Native.addHandle native handle [life, group] path = .ok native') :
    Agree runtime title native' wire := by
  obtain ⟨hdiagnostics, hexternals, hfind⟩ := Native.addHandle_eq_ok hnative
  refine ⟨hdiagnostics.trans h.diagnostics, hexternals.trans h.externals, ?_, ?_⟩
  · intro place code hcode stem fragment life' groups hfragment hpieces hproperties
    rw [hfind hcode] at hfragment
    cases hold : native.find? place (Names.objectHandle title stem) with
    | some old =>
      rw [hold] at hfragment
      cases hfragment
      exact h.objects.container hcode hold hpieces hproperties
    | none =>
      rw [hold] at hfragment
      replace hfragment : (if handle = Names.objectHandle title stem then
        some (Fragment.ofPieces [code [life, group]]) else none) = some fragment := hfragment
      split at hfragment
      · cases hfragment
        have heq := hcode.injective (List.cons.inj hpieces).1
        cases heq
        have hsome := hproperties group List.mem_cons_self
        rw [hgroup] at hsome
        cases hsome
      · cases hfragment
  · intro place code hcode stem found hfound
    obtain ⟨fragment, hfragment⟩ := h.objects.handle hcode hfound
    exact ⟨fragment, by rw [hfind hcode, hfragment]; rfl⟩

/-- The handle of an object and its container, with an accessor for each member. -/
theorem addObject {stem base path path' : String} {life : AccessorGroup}
    {groups : List AccessorGroup} {members : List Member} (h : Agree runtime title native wire)
    (hgives : List.Forall₂ (Access.Gives runtime (Names.qualified title stem)
      (runtime.wireContainer title stem)) groups members)
    (hnative : Native.addHandle native (Names.objectHandle title stem) (life :: groups) path =
      .ok native')
    (hwire : (wire.insert .containers (Names.containerClass stem)
      [.container ⟨Names.containerClass stem, base, members⟩] path').toExcept = .ok wire') :
    Agree runtime title native' wire' := by
  obtain ⟨hdiagnostics, hexternals, hfind⟩ := Native.addHandle_eq_ok hnative
  obtain ⟨hdiagnostics', hexternals', hfind'⟩ := Output.insert_eq_ok hwire
  refine ⟨by rw [hdiagnostics, hdiagnostics', h.diagnostics],
    by rw [hexternals, hexternals', h.externals], ?_, ?_⟩
  · intro place code hcode stem' fragment life' groups' hfragment hpieces hproperties
    rw [hfind hcode] at hfragment
    rw [hfind']
    cases hold : native.find? place (Names.objectHandle title stem') with
    | some old =>
      rw [hold] at hfragment
      cases hfragment
      obtain ⟨found, c, hfound, hrest⟩ := h.objects.container hcode hold hpieces hproperties
      exact ⟨found, c, by rw [hfound]; rfl, hrest⟩
    | none =>
      rw [hold] at hfragment
      have hfree : wire.find? .containers (Names.containerClass stem') = none :=
        h.objects.find?_container_eq_none hcode hold
      replace hfragment : (if Names.objectHandle title stem = Names.objectHandle title stem' then
        some (Fragment.ofPieces [code (life :: groups)]) else none) = some fragment := hfragment
      split at hfragment
      · rename_i hsymbol
        cases Names.objectHandle_injective hsymbol
        cases hfragment
        have heq := hcode.injective (List.cons.inj hpieces).1
        cases heq
        rw [hfree]
        exact ⟨_, _, if_pos ⟨rfl, rfl⟩, rfl, rfl, hgives⟩
      · cases hfragment
  · intro place code hcode stem' found hfound
    rw [hfind'] at hfound
    rw [hfind hcode]
    by_cases hstem : stem = stem'
    · subst hstem
      rw [if_pos rfl]
      cases native.find? place (Names.objectHandle title stem) with
      | some first => exact ⟨first, rfl⟩
      | none => exact ⟨_, rfl⟩
    · rw [if_neg fun hboth ↦ hstem (Names.containerClass_injective hboth.2), Option.or_none]
        at hfound
      obtain ⟨fragment, hfragment⟩ := h.objects.handle hcode hfound
      exact ⟨fragment, by rw [hfragment]; rfl⟩

end Output.Agree

end SchemaBindings
