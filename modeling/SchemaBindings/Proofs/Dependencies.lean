import SchemaBindings.Proofs.Construction
import SchemaBindings.Proofs.Entries
import SchemaBindings.Proofs.Presence
import SchemaBindings.Proofs.Twins

/-!
# Definition before use

C and C++ want a type defined before it is used. The handles and container classes of an output
stand in the order in which they came in, and a type comes in after all that it consists of. An
output is closed if every type that an entry uses is a type of the runtime, is defined further up
in the same set, or belongs to another document that the output refers to. Wire types know the
enumerations that they use by name only, so that for container classes it is left open which
enumerations there are.
-/

namespace SchemaBindings

open Code

/-! ## Types that are defined -/

/-- The type was generated for a schema of the document with this title. -/
def ValueType.BelongsTo (value : ValueType) (title : String) : Prop :=
  ∃ stem, match value.shape with
    | .enumeration => value.native = Names.qualified title stem
    | .object | .map => value.native = Names.objectHandle title stem
    | .array => value.native = Names.qualified title stem ++ "Array" ++ "Handle"
    | _ => False

/-- The type is one of these enumerations or handles, or a type of the runtime. -/
def ValueType.IsDefined (runtime : Runtime) (handles enums : List String) (value : ValueType) :
    Prop :=
  match value.shape with
  | .enumeration => value.native ∈ enums
  | .object | .array | .map => value.native ∈ handles
  | .string => value.native = runtime.stringHandle
  | .float => value.native = "float"
  | .integer => value.native ∈ ["int32_t", "uint32_t"]
  | .boolean => value.native = "bool"

/-- The type is defined, or belongs to another document that is referred to. -/
def ValueType.Stands (runtime : Runtime) (handles enums externals : List String)
    (value : ValueType) : Prop :=
  value.IsDefined runtime handles enums ∨ ∃ title ∈ externals, value.BelongsTo title

/-- What a wire type carries, apart from arrays around it. -/
inductive WireBase where
  | primitive (type : Primitive) (minimum : Option Double)
  | map
  | enumeration (title stem : String)
  | container (title stem : String)

namespace WireBase

def name (runtime : Runtime) : WireBase → String
  | primitive type minimum => runtime.wirePrimitive type minimum
  | map => runtime.wireMap
  | enumeration title stem => runtime.wireEnum (Names.qualified title stem)
  | container title stem => runtime.wireContainer title stem

/-- Title of the document that a generated type belongs to. -/
def title? : WireBase → Option String
  | primitive _ _ | map => none
  | enumeration title _ | container title _ => some title

/-- The wire type carries the base, in as many arrays as there may be. -/
inductive Carries (runtime : Runtime) (base : WireBase) : String → Prop
  | base : Carries runtime base (base.name runtime)
  | array {name : String} (h : Carries runtime base name) :
      Carries runtime base (runtime.wireArray name)

/-- The type is defined, or belongs to another document that is referred to. -/
def Stands (classes : List String) (isEnum : String → Prop) (externals : List String) :
    WireBase → Prop
  | primitive _ _ | map => True
  | enumeration title stem => isEnum (Names.qualified title stem) ∨ title ∈ externals
  | container title stem => Names.containerClass stem ∈ classes ∨ title ∈ externals

end WireBase

/-- The wire type carries a type that is defined or that belongs to another document. -/
def WireStands (runtime : Runtime) (classes : List String) (isEnum : String → Prop)
    (externals : List String) (type : String) : Prop :=
  ∃ base : WireBase, base.Carries runtime type ∧ base.Stands classes isEnum externals

section

variable {runtime : Runtime} {symbols symbols' enums enums' externals externals' : List String}
  {isEnum isEnum' : String → Prop}

theorem ValueType.Stands.mono {value : ValueType} (h : value.Stands runtime symbols enums externals)
    (hsymbols : symbols ⊆ symbols') (henums : enums ⊆ enums')
    (hexternals : externals ⊆ externals') : value.Stands runtime symbols' enums' externals' := by
  obtain hdefined | ⟨title, htitle, hbelongs⟩ := h
  · refine .inl ?_
    obtain ⟨native, wire, shape⟩ := value
    cases shape with
    | enumeration => exact henums hdefined
    | object => exact hsymbols hdefined
    | array => exact hsymbols hdefined
    | map => exact hsymbols hdefined
    | _ => exact hdefined
  · exact .inr ⟨title, hexternals htitle, hbelongs⟩

theorem WireBase.Stands.mono {base : WireBase} (h : base.Stands symbols isEnum externals)
    (hsymbols : symbols ⊆ symbols') (henums : ∀ name, isEnum name → isEnum' name)
    (hexternals : externals ⊆ externals') : base.Stands symbols' isEnum' externals' := by
  cases base with
  | primitive | map => trivial
  | enumeration title stem => exact h.imp (henums _) (hexternals ·)
  | container title stem => exact h.imp (hsymbols ·) (hexternals ·)

theorem WireStands.mono {type : String} (h : WireStands runtime symbols isEnum externals type)
    (hsymbols : symbols ⊆ symbols') (henums : ∀ name, isEnum name → isEnum' name)
    (hexternals : externals ⊆ externals') :
    WireStands runtime symbols' isEnum' externals' type :=
  let ⟨base, hcarries, hstands⟩ := h
  ⟨base, hcarries, hstands.mono hsymbols henums hexternals⟩

end

/-! ## Entries and what they need -/

def IsEnumeration (symbol : String) (code : Fragment) : Prop :=
  ∃ e : Enumeration, e.typeName = symbol ∧ code.pieces = [.enumeration e]

/-- The code declares a handle under its symbol, with access to values of types that stand. -/
def IsHandle (runtime : Runtime) (enums externals : List String) (symbol : String)
    (code : Fragment) (earlier : List String) : Prop :=
  ∃ container groups,
    code.pieces = [.declared (Access.lifecycle runtime symbol container :: groups)] ∧
      ∀ group ∈ groups, ∃ value, Access.To runtime value group ∧
        value.Stands runtime earlier enums externals

/-- The code is a container class under its symbol, with members of types that stand. -/
def IsContainer (runtime : Runtime) (isEnum : String → Prop) (externals : List String)
    (symbol : String) (code : Fragment) (earlier : List String) : Prop :=
  ∃ c : Container, c.name = symbol ∧ code.pieces = [.container c] ∧
    ∀ m ∈ c.members, WireStands runtime earlier isEnum externals m.type

/-- What an entry of a section is, and what it needs of the entries before it. -/
def EntryNeeds (runtime : Runtime) (enums : List String) (isEnum : String → Prop)
    (externals : List String) : Section → String → Fragment → List String → Prop
  | .enums => fun symbol code _ ↦ IsEnumeration symbol code
  | .declarations => IsHandle runtime enums externals
  | .containers => IsContainer runtime isEnum externals
  | _ => fun _ _ _ ↦ True

theorem EntryNeeds.mono {runtime : Runtime} {place : Section}
    {enums enums' externals externals' earlier earlier' : List String}
    {isEnum isEnum' : String → Prop} {symbol : String} {code : Fragment}
    (h : EntryNeeds runtime enums isEnum externals place symbol code earlier)
    (henums : enums ⊆ enums') (hisEnum : ∀ name, isEnum name → isEnum' name)
    (hexternals : externals ⊆ externals') (hearlier : earlier ⊆ earlier') :
    EntryNeeds runtime enums' isEnum' externals' place symbol code earlier' := by
  cases place with
  | enums => exact h
  | declarations =>
    obtain ⟨container, groups, hpieces, hgroups⟩ := h
    refine ⟨container, groups, hpieces, fun group hgroup ↦ ?_⟩
    obtain ⟨value, hvalue, hstands⟩ := hgroups group hgroup
    exact ⟨value, hvalue, hstands.mono hearlier henums hexternals⟩
  | containers =>
    obtain ⟨c, hname, hpieces, hmembers⟩ := h
    exact ⟨c, hname, hpieces, fun m hm ↦ (hmembers m hm).mono hearlier hisEnum hexternals⟩
  | _ => trivial

namespace Output

variable {runtime : Runtime} {isEnum isEnum' : String → Prop} {output other result : Output}
  {path : String}

/-- The entries of every section find what they need in the entries before them. Which enumerations
container classes may use is left open. -/
def ClosedWith (runtime : Runtime) (isEnum : String → Prop) (output : Output) : Prop :=
  ∀ place, (output.get place).InOrder
    (EntryNeeds runtime output.enums.symbols isEnum output.externals place)

/-- The entries find what they need, and all enumerations are entries. -/
def Closed (runtime : Runtime) (output : Output) : Prop :=
  output.ClosedWith runtime (· ∈ output.enums.symbols)

theorem ClosedWith.imp (h : output.ClosedWith runtime isEnum)
    (himp : ∀ name, isEnum name → isEnum' name) : output.ClosedWith runtime isEnum' :=
  fun place ↦ (h place).imp fun _ _ _ hneeds ↦
    hneeds.mono (List.Subset.refl _) himp (List.Subset.refl _) (List.Subset.refl _)

theorem closedWith_of_get_eq_empty (h : ∀ place, output.get place = {}) :
    output.ClosedWith runtime isEnum := by
  intro place
  rw [h place]
  exact Fragments.inOrder_empty

theorem closedWith_empty : ({} : Output).ClosedWith runtime isEnum :=
  closedWith_of_get_eq_empty fun place ↦ by cases place <;> rfl

theorem isSome_find?_iff {place : Section} {symbol : String} :
    (output.find? place symbol).isSome ↔ symbol ∈ (output.get place).symbols := by
  unfold find?
  rw [← not_iff_not, ← Fragments.get?_eq_none_iff, Option.not_isSome_iff_eq_none]

theorem Grows.subset (h : output.Grows result) (place : Section) :
    (output.get place).symbols ⊆ (result.get place).symbols :=
  fun symbol hsymbol ↦ isSome_find?_iff.1 (h place symbol (isSome_find?_iff.2 hsymbol))

theorem merge_externals (h : (output.merge other path).toExcept = .ok result) :
    output.externals ⊆ result.externals ∧ other.externals ⊆ result.externals := by
  rw [(merge_eq_ok h).2.1]
  exact ⟨fun _ hmem ↦ mem_addAllNew.2 (.inl hmem), fun _ hmem ↦ mem_addAllNew.2 (.inr hmem)⟩

theorem ClosedWith.merge (h : output.ClosedWith runtime isEnum)
    (hother : other.ClosedWith runtime isEnum)
    (hmerge : (output.merge other path).toExcept = .ok result) :
    result.ClosedWith runtime isEnum := by
  intro place
  obtain ⟨hsuccess, hget⟩ := merge_get hmerge place
  obtain ⟨hgrows, hgrows'⟩ := grows_merge hmerge
  obtain ⟨hexternals, hexternals'⟩ := merge_externals hmerge
  rw [hget]
  refine Fragments.InOrder.merge ?_ ?_ ?_ hsuccess
  · exact (h place).imp fun _ _ _ hneeds ↦
      hneeds.mono (hgrows.subset .enums) (fun _ ↦ id) hexternals (List.Subset.refl _)
  · exact (hother place).imp fun _ _ _ hneeds ↦
      hneeds.mono (hgrows'.subset .enums) (fun _ ↦ id) hexternals' (List.Subset.refl _)
  · exact fun _ _ _ _ hearlier hneeds ↦
      hneeds.mono (List.Subset.refl _) (fun _ ↦ id) (List.Subset.refl _) hearlier

theorem ClosedWith.addDiagnostic (h : output.ClosedWith runtime isEnum) (notice : Diagnostic) :
    (output.addDiagnostic notice).ClosedWith runtime isEnum := by
  intro place
  rw [get_addDiagnostic]
  exact h place

/-- One entry comes in that finds what it needs. -/
theorem ClosedWith.insert {place : Section} {symbol : String} {pieces : List Piece}
    (h : output.ClosedWith runtime isEnum)
    (hneeds : EntryNeeds runtime output.enums.symbols isEnum output.externals place symbol
      (.ofPieces pieces) (output.get place).symbols)
    (hinsert : (output.insert place symbol pieces path).toExcept = .ok result) :
    result.ClosedWith runtime isEnum := by
  intro other
  have hexternals := (insert_eq_ok hinsert).2.1
  have hgrows := (grows_insert hinsert).1
  obtain ⟨hsuccess, hset⟩ := insert_eq_set hinsert
  have hlater : ∀ {place symbol code earlier},
      EntryNeeds runtime output.enums.symbols isEnum output.externals place symbol code earlier →
        EntryNeeds runtime result.enums.symbols isEnum result.externals place symbol code earlier :=
    fun hneeds ↦ hneeds.mono (hgrows.subset .enums) (fun _ ↦ id) (hexternals ▸ List.Subset.refl _)
      (List.Subset.refl _)
  by_cases hplace : other = place
  · subst hplace
    have hget : result.get other =
        ((output.get other).insert symbol (.ofPieces pieces) path).value := by
      rw [hset, get_set_self]
    rw [hget]
    exact ((h other).imp fun _ _ _ ↦ hlater).insert (hlater hneeds) hsuccess
  · have hget : result.get other = output.get other := by rw [hset, get_set_of_ne output hplace]
    rw [hget]
    exact (h other).imp fun _ _ _ ↦ hlater

/-- The values behind the accessors have types that stand in the output. -/
def Supports (runtime : Runtime) (output : Output) (groups : List AccessorGroup) : Prop :=
  ∀ group ∈ groups, ∃ value, Access.To runtime value group ∧
    value.Stands runtime output.declarations.symbols output.enums.symbols output.externals

theorem Supports.merge {groups : List AccessorGroup} (h : output.Supports runtime groups)
    (hmerge : (output.merge other path).toExcept = .ok result) :
    result.Supports runtime groups := by
  intro group hgroup
  obtain ⟨value, hvalue, hstands⟩ := h group hgroup
  have hgrows := (grows_merge hmerge).1
  exact ⟨value, hvalue,
    hstands.mono (hgrows.subset .declarations) (hgrows.subset .enums) (merge_externals hmerge).1⟩

/-- A handle comes in after the types of all that it gives access to. -/
theorem ClosedWith.addHandle {handle container : String} {groups : List AccessorGroup}
    (h : output.ClosedWith runtime isEnum) (hgroups : output.Supports runtime groups)
    (hadd : Native.addHandle output handle
      (Access.lifecycle runtime handle container :: groups) path = .ok result) :
    result.ClosedWith runtime isEnum := by
  obtain ⟨between, hdeclared, hdefined⟩ := Native.addHandle_inserts hadd
  have hneeds : EntryNeeds runtime output.enums.symbols isEnum output.externals .declarations handle
      (.ofPieces [.declared (Access.lifecycle runtime handle container :: groups)])
      (output.get .declarations).symbols :=
    ⟨container, groups, rfl, hgroups⟩
  have hrest : EntryNeeds runtime between.enums.symbols isEnum between.externals .definitions handle
      (.ofPieces [.defined (Access.lifecycle runtime handle container :: groups)])
      (between.get .definitions).symbols :=
    trivial
  exact (h.insert hneeds hdeclared).insert hrest hdefined

end Output

/-! ## Native types -/

/-- The type is one of the runtime, or belongs either to another document that is referred to or to
the document with this title, where it is defined. -/
def NativeType.Rooted (runtime : Runtime) (title : String) (type : NativeType) : Prop :=
  type.valueType.IsDefined runtime [] [] ∨
    ∃ home, type.valueType.BelongsTo home ∧
      (home ∈ type.output.externals ∨ home = title ∧ type.valueType.IsDefined runtime
        type.output.declarations.symbols type.output.enums.symbols)

theorem NativeType.Rooted.stands {runtime : Runtime} {title : String} {type : NativeType}
    (h : type.Rooted runtime title) :
    type.valueType.Stands runtime type.output.declarations.symbols type.output.enums.symbols
      type.output.externals := by
  obtain hplain | ⟨home, hbelongs, hexternal | ⟨-, hdefined⟩⟩ := h
  · have hnothing : ValueType.Stands runtime [] [] [] type.valueType := .inl hplain
    exact hnothing.mono (List.nil_subset _) (List.nil_subset _) (List.nil_subset _)
  · exact .inr ⟨home, hexternal, hbelongs⟩
  · exact .inl hdefined

namespace Native

variable {cx : Context} {isExternal : Bool} {document : Document} {type : NativeType}
  {isEnum : String → Prop}

theorem addHandle_symbols {output result : Output} {handle path : String}
    {groups : List AccessorGroup} (h : addHandle output handle groups path = .ok result) :
    ∀ place ∈ [Section.declarations, .definitions], handle ∈ (result.get place).symbols :=
  fun place hplace ↦ Output.isSome_find?_iff.1 ((grows_addHandle h).2 place hplace)

/-- The sections that the code of a type with this shape stands in. -/
def sections : Shape → List Section
  | .enumeration => [.enums, .conversions]
  | .object | .array | .map => [.declarations, .definitions]
  | _ => []

/-- A type that is not external has its own entries. -/
theorem Built.has_entries (h : Built cx false document type) :
    ∀ place ∈ sections type.shape, type.name ∈ (type.output.get place).symbols := by
  intro place hplace
  cases h with
  | primitive _ kind => cases kind <;> cases hplace
  | enumeration =>
    obtain rfl | hlast := List.mem_cons.1 hplace
    · exact List.mem_singleton_self _
    · obtain rfl := List.mem_singleton.1 hlast
      exact List.mem_singleton_self _
  | array _ _ hadd => exact addHandle_symbols hadd place hplace
  | object _ _ _ hadd => exact addHandle_symbols hadd place hplace
  | map _ _ hadd => exact addHandle_symbols hadd place hplace

theorem Built.rooted (h : Built cx isExternal document type) :
    type.Rooted cx.runtime document.title := by
  induction h with
  | primitive document kind minimum =>
    refine .inl ?_
    cases kind with
    | integer =>
      have hname : ∀ b : Bool,
          (if b then "uint32_t" else "int32_t") ∈ ["int32_t", "uint32_t"] := by decide
      exact hname (isUnsigned minimum)
    | _ => rfl
  | enumeration document stem =>
    exact .inr ⟨document.title, ⟨stem, rfl⟩, .inr ⟨rfl, List.mem_singleton_self _⟩⟩
  | @array document _ _ stem _ _ _ _ _ _ hadd _ =>
    exact .inr ⟨document.title, ⟨stem, rfl⟩,
      .inr ⟨rfl, addHandle_symbols hadd .declarations (.head _)⟩⟩
  | @object document stem _ _ _ _ _ _ _ _ hadd _ =>
    exact .inr ⟨document.title, ⟨stem, rfl⟩,
      .inr ⟨rfl, addHandle_symbols hadd .declarations (.head _)⟩⟩
  | @map document _ _ stem _ _ _ _ _ _ hadd _ =>
    exact .inr ⟨document.title, ⟨stem, rfl⟩,
      .inr ⟨rfl, addHandle_symbols hadd .declarations (.head _)⟩⟩
  | external _ _ _ ih =>
    obtain hplain | ⟨home, hbelongs, hexternal | ⟨rfl, -⟩⟩ := ih
    · exact .inl hplain
    · exact .inr ⟨home, hbelongs, .inl (mem_addNew.2 (.inl hexternal))⟩
    · exact .inr ⟨_, hbelongs, .inl (mem_addNew.2 (.inr rfl))⟩

/-- What has been gathered for an object is closed, and supports its accessors. -/
structure Gathered.Closed (runtime : Runtime) (isEnum : String → Prop) (life : AccessorGroup)
    (gathered : Gathered) : Prop where
  output : gathered.output.ClosedWith runtime isEnum
  groups : ∃ groups, gathered.groups = life :: groups ∧ gathered.output.Supports runtime groups

/-- A type that is absorbed supports the access to its values. -/
theorem Built.supports_absorb (h : Built cx isExternal document type) {output result : Output}
    {path : String} {group : AccessorGroup} (hgroup : Access.To cx.runtime type.valueType group)
    (habsorb : NativeType.absorb output type path = .ok result) :
    result.Supports cx.runtime [group] := by
  intro other hother
  cases List.mem_singleton.1 hother
  have hgrows := (Output.grows_merge habsorb).2
  exact ⟨type.valueType, hgroup, h.rooted.stands.mono (hgrows.subset .declarations)
    (hgrows.subset .enums) (Output.merge_externals habsorb).2⟩

/-- The output of a native type has no container classes, so that it is closed whatever they use. -/
theorem Built.closedWith (h : Built cx isExternal document type) (isEnum : String → Prop) :
    type.output.ClosedWith cx.runtime isEnum := by
  induction h with
  | primitive document kind => cases kind <;> exact Output.closedWith_empty
  | enumeration document stem label description values =>
    intro place
    cases place with
    | enums => exact Fragments.inOrder_empty.concat ⟨⟨_, label, description, values⟩, rfl, rfl⟩
    | conversions => exact Fragments.inOrder_empty.concat trivial
    | _ => exact Fragments.inOrder_empty
  | array helement habsorb hadd ih =>
    exact (Output.closedWith_empty.merge ih habsorb).addHandle
      (helement.supports_absorb (.elements _ _ _ _) habsorb) hadd
  | @object document stem label path parts gathered result hparts hgroups hgathered hadd ih =>
    have hclosed : gathered.Closed cx.runtime isEnum
        (Access.lifecycle cx.runtime (Names.objectHandle document.title stem)
          (cx.runtime.wireContainer document.title stem)) := by
      refine Failure.foldlM_induction ⟨Output.closedWith_empty, [], rfl, nofun⟩ hgathered ?_
      intro part hpart soFar next hsoFar hnext
      obtain ⟨groups, hlife, hsupports⟩ := hsoFar.groups
      obtain ⟨isExternal, type, group, place, output, rfl, habsorb, rfl⟩ | ⟨notice, -, rfl⟩ :=
        Part.add_cases hnext
      · refine ⟨hsoFar.output.merge (ih _ _ _ _ hpart) habsorb, groups ++ [group], ?_, ?_⟩
        · rw [hlife]
          rfl
        · intro other hother
          obtain hold | hnew := List.mem_append.1 hother
          · exact hsupports.merge habsorb other hold
          · have hgroup := (hgroups _ _ _ _ hpart).to
            exact (hparts _ _ _ _ hpart).supports_absorb hgroup habsorb other hnew
      · refine ⟨hsoFar.output.addDiagnostic notice, groups, hlife, hsupports⟩
    obtain ⟨groups, hlife, hsupports⟩ := hclosed.groups
    rw [hlife] at hadd
    exact hclosed.output.addHandle hsupports hadd
  | map hvalue habsorb hadd ih =>
    exact (Output.closedWith_empty.merge ih habsorb).addHandle
      (hvalue.supports_absorb (.entries _ _) habsorb) hadd
  | external =>
    exact Output.closedWith_of_get_eq_empty fun place ↦ by cases place <;> rfl

end Native

/-! ## Wire types -/

/-- What the wire type consists of is closed, and what it carries stands there or belongs to another
document; all else belongs to the document with this title. -/
structure WireType.Closed (runtime : Runtime) (isEnum : String → Prop) (title : String)
    (type : WireType) : Prop where
  output : type.output.ClosedWith runtime isEnum
  base : ∃ base : WireBase, base.Carries runtime type.name ∧
    base.Stands type.output.containers.symbols isEnum type.output.externals ∧
      ∀ home ∈ base.title?, home = title ∨ home ∈ type.output.externals

/-- What has been gathered for an object is closed, and the types of its members stand. -/
structure Wire.Gathered.Closed (runtime : Runtime) (isEnum : String → Prop)
    (gathered : Wire.Gathered) : Prop where
  output : gathered.output.ClosedWith runtime isEnum
  members : ∀ m ∈ gathered.members, WireStands runtime gathered.output.containers.symbols isEnum
    gathered.output.externals m.type

section

variable {runtime : Runtime} {isEnum isEnum' : String → Prop} {title : String} {type : WireType}
  {output result : Output} {path : String}

namespace WireType.Closed

theorem imp (h : type.Closed runtime isEnum title) (himp : ∀ name, isEnum name → isEnum' name) :
    type.Closed runtime isEnum' title := by
  obtain ⟨base, hcarries, hstands, hhome⟩ := h.base
  exact ⟨h.output.imp himp, base, hcarries,
    hstands.mono (List.Subset.refl _) himp (List.Subset.refl _), hhome⟩

/-- The type stands wherever it is absorbed. -/
theorem stands_absorb (h : type.Closed runtime isEnum title)
    (habsorb : WireType.absorb output type path = .ok result) :
    WireStands runtime result.containers.symbols isEnum result.externals type.name := by
  obtain ⟨base, hcarries, hstands, -⟩ := h.base
  exact ⟨base, hcarries, hstands.mono ((Output.grows_merge habsorb).2.subset .containers)
    (fun _ ↦ id) (Output.merge_externals habsorb).2⟩

theorem of_plain (base : WireBase) (h : output.ClosedWith runtime isEnum)
    (hplain : base.title? = none) : Closed runtime isEnum title ⟨base.name runtime, output⟩ := by
  refine ⟨h, base, .base, ?_, fun home hhome ↦ by rw [hplain] at hhome; cases hhome⟩
  cases base with
  | primitive | map => trivial
  | enumeration | container => cases hplain

theorem array (h : type.Closed runtime isEnum title)
    (habsorb : WireType.absorb {} type path = .ok output) :
    Closed runtime isEnum title ⟨runtime.wireArray type.name, output⟩ := by
  obtain ⟨base, hcarries, hstands, hhome⟩ := h.base
  have hexternals := (Output.merge_externals habsorb).2
  refine ⟨Output.closedWith_empty.merge h.output habsorb, base, hcarries.array, ?_, ?_⟩
  · exact hstands.mono ((Output.grows_merge habsorb).2.subset .containers) (fun _ ↦ id) hexternals
  · exact fun home hmem ↦ (hhome home hmem).imp id (hexternals ·)

/-- In another document the type is known by its name and by the title of its owner. -/
theorem external {owner : String} (h : type.Closed runtime isEnum owner) :
    (type.external owner).Closed runtime isEnum' title := by
  obtain ⟨base, hcarries, -, hhome⟩ := h.base
  have hexternal : ∀ home ∈ base.title?, home ∈ (type.external owner).output.externals :=
    fun home hmem ↦ mem_addNew.2 (hhome home hmem).symm
  refine ⟨Output.closedWith_of_get_eq_empty fun place ↦ by cases place <;> rfl, base, hcarries, ?_,
    fun home hmem ↦ .inr (hexternal home hmem)⟩
  cases base with
  | primitive | map => trivial
  | enumeration home stem => exact .inr (hexternal home rfl)
  | container home stem => exact .inr (hexternal home rfl)

end WireType.Closed

namespace Wire.Gathered.Closed

variable {gathered : Wire.Gathered}

theorem imp (h : gathered.Closed runtime isEnum) (himp : ∀ name, isEnum name → isEnum' name) :
    gathered.Closed runtime isEnum' :=
  ⟨h.output.imp himp, fun m hm ↦
    (h.members m hm).mono (List.Subset.refl _) himp (List.Subset.refl _)⟩

theorem addMember (h : gathered.Closed runtime isEnum) (htype : type.Closed runtime isEnum title)
    (habsorb : WireType.absorb gathered.output type path = .ok output) (property : String) :
    Closed runtime isEnum ⟨output, gathered.members ++ [⟨property, type.name⟩]⟩ := by
  refine ⟨h.output.merge htype.output habsorb, fun m hm ↦ ?_⟩
  obtain hold | hnew := List.mem_append.1 hm
  · exact (h.members m hold).mono ((Output.grows_merge habsorb).1.subset .containers) (fun _ ↦ id)
      (Output.merge_externals habsorb).1
  · cases List.mem_singleton.1 hnew
    exact htype.stands_absorb habsorb

theorem addDiagnostic (h : gathered.Closed runtime isEnum) (notice : Diagnostic) :
    Closed runtime isEnum { gathered with output := gathered.output.addDiagnostic notice } :=
  ⟨h.output.addDiagnostic notice, h.members⟩

/-- A container class comes in after the types of all of its members. -/
theorem object {stem base : String} (h : gathered.Closed runtime isEnum)
    (hinsert : (gathered.output.insert .containers (Names.containerClass stem) [.container
      ⟨Names.containerClass stem, base, gathered.members⟩] path).toExcept = .ok result) :
    WireType.Closed runtime isEnum title ⟨runtime.wireContainer title stem, result⟩ := by
  have hneeds : EntryNeeds runtime gathered.output.enums.symbols isEnum gathered.output.externals
      .containers (Names.containerClass stem) (.ofPieces [.container
        ⟨Names.containerClass stem, base, gathered.members⟩])
      (gathered.output.get .containers).symbols :=
    ⟨_, rfl, rfl, h.members⟩
  have hclass : Names.containerClass stem ∈ (result.get .containers).symbols :=
    Output.isSome_find?_iff.1 (Output.grows_insert hinsert).2
  refine ⟨h.output.insert hneeds hinsert, .container title stem, .base, .inl hclass, ?_⟩
  rintro home ⟨⟩
  exact .inl rfl

end Wire.Gathered.Closed

end

section

variable {cx : Context} {isExternal : Bool} {document : Document}

/-- A wire type by itself is closed up to enumerations. -/
theorem Wire.Built.closed {type : WireType} (h : Wire.Built cx isExternal document type) :
    type.Closed cx.runtime (fun _ ↦ True) document.title := by
  induction h with
  | primitive document kind minimum =>
    exact .of_plain (.primitive kind minimum) Output.closedWith_empty rfl
  | enumeration document stem =>
    refine ⟨Output.closedWith_empty, .enumeration document.title stem, .base, .inl trivial, ?_⟩
    rintro home ⟨⟩
    exact .inl rfl
  | array _ habsorb ih => exact ih.array habsorb
  | @object document stem path parts gathered result hparts hgathered hinsert ih =>
    have hclosed : gathered.Closed cx.runtime fun _ ↦ True := by
      refine Failure.foldlM_induction
        ⟨Output.closedWith_empty, fun _ hm ↦ absurd hm List.not_mem_nil⟩ hgathered ?_
      intro part hpart soFar next hsoFar hnext
      obtain ⟨isExternal, property, type, place, output, rfl, habsorb, rfl⟩ | ⟨notice, -, rfl⟩ :=
        Part.add_cases hnext
      · exact hsoFar.addMember (ih _ _ _ _ hpart) habsorb property
      · exact hsoFar.addDiagnostic notice
    exact hclosed.object hinsert
  | map _ habsorb ih => exact .of_plain .map (Output.closedWith_empty.merge ih.output habsorb) rfl
  | external _ _ _ ih => exact ih.external

/-- A part that comes in on both sides brings the enumerations that its wire type uses. -/
theorem Twin.Part.add_closed {runtime : Runtime} {title : String} {parent : Native.Parent}
    {soFar next : Twin.Gathered} {part : Twin.Part}
    (h : soFar.2.Closed runtime (· ∈ soFar.1.output.enums.symbols))
    (hpart : part.Of fun native wire ↦
      wire.Closed runtime (· ∈ native.output.enums.symbols) title)
    (hadd : part.add runtime parent soFar = .ok next) :
    next.2.Closed runtime (· ∈ next.1.output.enums.symbols) := by
  have habsorbed : ∀ {native : NativeType} {path : String} {result : Output},
      NativeType.absorb soFar.1.output native path = .ok result →
        soFar.1.output.enums.symbols ⊆ result.enums.symbols ∧
          native.output.enums.symbols ⊆ result.enums.symbols :=
    fun hresult ↦ (Output.grows_merge hresult).imp (·.subset .enums) (·.subset .enums)
  cases part with
  | whole native wire property options path =>
    obtain ⟨output, houtput, hadd⟩ := Failure.bind_eq_ok.1 hadd
    obtain ⟨output', houtput', hadd⟩ := Failure.bind_eq_ok.1 hadd
    cases hadd
    obtain ⟨hold, hnew⟩ := habsorbed houtput
    exact (h.imp fun _ hname ↦ hold hname).addMember (hpart.imp fun _ hname ↦ hnew hname) houtput'
      property
  | elements element value output property path =>
    obtain ⟨result, hresult, hadd⟩ := Failure.bind_eq_ok.1 hadd
    obtain ⟨result', hresult', hadd⟩ := Failure.bind_eq_ok.1 hadd
    cases hadd
    obtain ⟨hold, hnew⟩ := habsorbed hresult
    obtain ⟨hvalue, inner, hinner⟩ := hpart
    have harray := (hvalue.imp fun _ hname ↦ hnew hname).array hinner
    exact (h.imp fun _ hname ↦ hold hname).addMember harray hresult' property
  | omitted notice =>
    cases hadd
    exact h.addDiagnostic notice

/-- With a native type that was put together side by side, a wire type is closed: the native type
has all enumerations that the wire type uses. -/
theorem Twin.closed {native : NativeType} {wire : WireType} (h : Twin cx document native wire) :
    wire.Closed cx.runtime (· ∈ native.output.enums.symbols) document.title := by
  induction h with
  | primitive document kind minimum =>
    exact .of_plain (.primitive kind minimum) Output.closedWith_empty rfl
  | enumeration document stem =>
    refine ⟨Output.closedWith_empty, .enumeration document.title stem, .base,
      .inl (List.mem_singleton_self _), ?_⟩
    rintro home ⟨⟩
    exact .inl rfl
  | array _ habsorb habsorb' hadd ih =>
    have hgrows := (Output.grows_merge habsorb).2.trans (Native.grows_addHandle hadd).1
    exact (ih.imp fun _ hname ↦ hgrows.subset .enums hname).array habsorb'
  | @object document stem label path parts gathered result result' _ _ habsorb hgathered hadd
      hinsert hwhole helements =>
    have hparts := Twin.Part.of_mem hwhole helements habsorb
    have hclosed : gathered.2.Closed cx.runtime (· ∈ gathered.1.output.enums.symbols) := by
      refine Failure.foldlM_induction (P := fun soFar : Twin.Gathered ↦
        soFar.2.Closed cx.runtime (· ∈ soFar.1.output.enums.symbols))
        ⟨Output.closedWith_empty, fun _ hm ↦ absurd hm List.not_mem_nil⟩ hgathered ?_
      exact fun part hpart soFar next hsoFar hnext ↦ Twin.Part.add_closed hsoFar (hparts part hpart)
        hnext
    have hgrows := (Native.grows_addHandle hadd).1
    exact (hclosed.imp fun _ hname ↦ hgrows.subset .enums hname).object hinsert
  | map _ habsorb habsorb' hadd ih =>
    have hgrows := (Output.grows_merge habsorb).2.trans (Native.grows_addHandle hadd).1
    have hvalue := ih.imp fun _ hname ↦ hgrows.subset .enums hname
    exact .of_plain .map (Output.closedWith_empty.merge hvalue.output habsorb') rfl
  | external _ _ ih => exact ih.external

end

end SchemaBindings
