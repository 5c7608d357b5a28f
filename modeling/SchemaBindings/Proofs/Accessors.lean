import SchemaBindings.Proofs.Assembly
import SchemaBindings.Proofs.Budget
import SchemaBindings.Proofs.Clashes
import SchemaBindings.Proofs.Mapping
import SchemaBindings.Proofs.Signatures

/-!
# Names of accessors

The handles of an output are told apart by their symbols, but the functions behind them are named
by joining texts with underscores, and an array that is declared in place lends its functions to
the object around it under a name of its own. Functions of different groups can be told apart by
what stands behind the last underscore, unless one of them belongs to a property, or both give
access to elements.
-/

namespace SchemaBindings

open Code

/-! ## The last underscore -/

theorem Text.append_underscore_inj {left right left' right' : String}
    (h : '_' ∉ right.toList) (h' : '_' ∉ right'.toList) :
    left ++ "_" ++ right = left' ++ "_" ++ right' ↔ left = left' ∧ right = right' := by
  constructor
  · intro heq
    have hchars : left.toList ++ '_' :: right.toList = left'.toList ++ '_' :: right'.toList := by
      simpa [String.append_assoc] using congrArg String.toList heq
    obtain ⟨rest, hleft, hright⟩ | ⟨rest, hleft, hright⟩ := List.append_eq_append_iff.1 hchars
    · cases rest with
      | nil => simp_all [String.toList_inj]
      | cons c rest =>
        simp only [List.cons_append, List.cons.injEq] at hright
        exact absurd (hright.2 ▸ List.mem_append_right rest List.mem_cons_self) h
    · cases rest with
      | nil => simp_all [String.toList_inj]
      | cons c rest =>
        simp only [List.cons_append, List.cons.injEq] at hright
        exact absurd (hright.2 ▸ List.mem_append_right rest List.mem_cons_self) h'
  · rintro ⟨rfl, rfl⟩
    rfl

/-! ## Names of groups -/

namespace Code

/-- What the groups are about, without the names and types. -/
inductive Aspect where
  | life
  | property
  | elements
  | entries
  deriving DecidableEq

namespace AccessorGroup

def aspect (g : AccessorGroup) : Aspect :=
  match g.subject with
  | .lifecycle _ => .life
  | .property .. => .property
  | .elements .. => .elements
  | .entries _ => .entries

/-- Names of the functions of the group. -/
def names (g : AccessorGroup) : List String := g.routines.map (·.signature.name)

end AccessorGroup

/-- The groups of accessors that code declares. -/
def Fragment.groups (code : Fragment) : List AccessorGroup :=
  code.pieces.flatMap fun
    | .declared groups => groups
    | _ => []

/-- The last parts of the names of functions that are not about a property by itself. -/
def Aspect.verbs : Aspect → List String
  | life => ["Create", "Addref", "Release", "IsValid"]
  | property => []
  | elements => ["Size", "Get", "Add", "Clear"]
  | entries => ["KeysCount", "AddKey", "RemoveKey", "FindKey"]

theorem Aspect.plain_verbs (aspect : Aspect) : ∀ verb ∈ aspect.verbs, '_' ∉ verb.toList := by
  cases aspect <;> decide

theorem Aspect.disjoint_verbs {aspect aspect' : Aspect} (h : aspect ≠ aspect') :
    aspect.verbs.Disjoint aspect'.verbs := by
  rw [List.disjoint_iff_ne]
  revert h
  cases aspect <;> cases aspect' <;> decide

end Code

namespace Access

variable {runtime : Runtime} {base handle container : String} {value : ValueType}

/-- Names that are made from a base. -/
def called (base : String) (verbs : List String) : List String :=
  verbs.map fun verb ↦ base ++ "_" ++ verb

theorem called_elements_inj {base' : String} :
    called base Aspect.elements.verbs = called base' Aspect.elements.verbs ↔ base = base' := by
  simp [called, Aspect.verbs]

theorem disjoint_called {base' : String} {verbs verbs' : List String}
    (hverbs : ∀ verb ∈ verbs, '_' ∉ verb.toList) (hverbs' : ∀ verb ∈ verbs', '_' ∉ verb.toList)
    (h : base ≠ base' ∨ verbs.Disjoint verbs') :
    (called base verbs).Disjoint (called base' verbs') := by
  intro name hname hname'
  obtain ⟨verb, hverb, rfl⟩ := List.mem_map.1 hname
  obtain ⟨verb', hverb', heq⟩ := List.mem_map.1 hname'
  obtain ⟨hbase, rfl⟩ :=
    (Text.append_underscore_inj (hverbs' _ hverb') (hverbs _ hverb)).1 heq
  obtain hne | hdisjoint := h
  · exact hne hbase.symm
  · exact hdisjoint hverb hverb'

theorem names_lifecycle :
    (lifecycle runtime handle container).names = called handle Aspect.life.verbs := by
  simp [lifecycle, AccessorGroup.names, called, Aspect.verbs, String.append_assoc]

theorem names_elements {property : Option (String × String)} :
    (elements runtime base handle container property value).names =
      called base Aspect.elements.verbs := by
  simp [elements, AccessorGroup.names, called, Aspect.verbs, String.append_assoc]

theorem names_entries :
    (entries runtime base container value).names = called base Aspect.entries.verbs := by
  simp [entries, AccessorGroup.names, called, Aspect.verbs, String.append_assoc]

/-- What is done with a property, in the middle of the names of its functions. -/
def propertyVerbs (options : PropertyOptions) : List String :=
  "Get" :: ((if options.isReadOnly then [] else ["Set"]) ++
    if options.isOptional then ["Has", "Clear"] else [])

theorem names_property {name : String} {options : PropertyOptions} :
    (property runtime base container name value options).names =
      (propertyVerbs options).map fun verb ↦
        base ++ "_" ++ verb ++ "_" ++ Text.capitalize name := by
  have hname : ∀ middle verb member : String, middle = "_" ++ verb ++ "_" →
      toString base ++ toString middle ++ toString member =
        base ++ "_" ++ verb ++ "_" ++ member := by
    rintro _ verb member rfl
    simp only [toString, String.append_assoc]
  obtain ⟨isReadOnly, isOptional⟩ := options
  cases isReadOnly <;> cases isOptional <;>
    simp [property, AccessorGroup.names, propertyVerbs, hname "_Get_" "Get" _ rfl,
      hname "_Set_" "Set" _ rfl, hname "_Has_" "Has" _ rfl, hname "_Clear_" "Clear" _ rfl]

/-! ## Groups behind a handle -/

/-- The groups that can stand behind the handle of a base. An array in place is accessed through
the handle of the object around it. -/
inductive Behind (runtime : Runtime) (base : String) : AccessorGroup → Prop
  | life (container : String) :
      Behind runtime base (lifecycle runtime (base ++ "Handle") container)
  | property (container name : String) (value : ValueType) (options : PropertyOptions) :
      Behind runtime base (property runtime base container name value options)
  | inPlace (container name : String) (element : ValueType) :
      Behind runtime base
        (elements runtime (base ++ "_" ++ Text.capitalize name ++ "Array") (base ++ "Handle")
          container (some (name, Text.capitalize name)) element)
  | elements (container : String) (element : ValueType) (h : ∃ stem, base = stem ++ "Array") :
      Behind runtime base (elements runtime base (base ++ "Handle") container none element)
  | entries (container : String) (value : ValueType) :
      Behind runtime base (entries runtime base container value)

/-- The groups of a handle belong to one base. Only groups of properties share an aspect. -/
def AreBehind (runtime : Runtime) (base : String) (groups : List AccessorGroup) : Prop :=
  (∀ g ∈ groups, Behind runtime base g) ∧
    groups.Pairwise fun g h ↦ g.aspect = h.aspect → g.property?.isSome ∧ h.property?.isSome

/-- What stands in the sections of a header: enumerations and handles of a document with this
title, and functions as they are told. -/
def Declares (runtime : Runtime) (title : String) (functions : String → Fragment → Prop) :
    Section → String → Fragment → Prop
  | .enums, symbol, _ => ∃ stem, symbol = Names.qualified title stem
  | .declarations, symbol, code => ∃ stem groups, symbol = Names.objectHandle title stem ∧
      code.pieces = [.declared groups] ∧ AreBehind runtime (Names.qualified title stem) groups
  | .prototypes, symbol, code => functions symbol code
  | _, _, _ => True

theorem areBehind_array {element : ValueType} {container container' : String}
    (h : ∃ stem, base = stem ++ "Array") :
    AreBehind runtime base [lifecycle runtime (base ++ "Handle") container,
      elements runtime base (base ++ "Handle") container' none element] := by
  constructor
  · simp only [List.forall_mem_cons, List.not_mem_nil, false_implies, implies_true, and_true]
    exact ⟨.life _, .elements _ _ h⟩
  · rw [List.pairwise_pair]
    nofun

theorem areBehind_map {container container' : String} :
    AreBehind runtime base [lifecycle runtime (base ++ "Handle") container,
      entries runtime base container' value] := by
  constructor
  · simp only [List.forall_mem_cons, List.not_mem_nil, false_implies, implies_true, and_true]
    exact ⟨.life _, .entries _ _⟩
  · rw [List.pairwise_pair]
    nofun

/-- The groups of an object are the life of its handle and those of its properties. -/
def ArePartsOf (runtime : Runtime) (base : String) (groups : List AccessorGroup) : Prop :=
  AreBehind runtime base groups ∧ ∀ g ∈ groups, g.aspect = .life ∨ g.property?.isSome

theorem arePartsOf_life :
    ArePartsOf runtime base [lifecycle runtime (base ++ "Handle") container] := by
  refine ⟨⟨?_, List.pairwise_singleton _ _⟩, ?_⟩
  · intro g hg
    rw [List.mem_singleton.1 hg]
    exact .life _
  · intro g hg
    rw [List.mem_singleton.1 hg]
    exact .inl rfl

theorem ArePartsOf.concat {title stem : String} {groups : List AccessorGroup} {g : AccessorGroup}
    (h : ArePartsOf runtime (Names.qualified title stem) groups)
    (hg : Access.Of runtime (.ofStem runtime title stem) value g) :
    ArePartsOf runtime (Names.qualified title stem) (groups ++ [g]) := by
  have hbehind : Behind runtime (Names.qualified title stem) g := by
    cases hg with
    | property name options => exact .property _ _ _ _
    | elements name => exact .inPlace _ _ _
  have hproperty : g.property?.isSome ∧ g.aspect ≠ .life := by
    cases hg with
    | property name options => exact ⟨rfl, nofun⟩
    | elements name => exact ⟨rfl, nofun⟩
  obtain ⟨⟨hall, hpairs⟩, hkinds⟩ := h
  refine ⟨⟨?_, ?_⟩, ?_⟩
  · intro other hother
    obtain hother | hother := List.mem_append.1 hother
    · exact hall other hother
    · rw [List.mem_singleton.1 hother]
      exact hbehind
  · refine List.pairwise_append.2 ⟨hpairs, List.pairwise_singleton _ _, ?_⟩
    intro other hother last hlast haspect
    rw [List.mem_singleton.1 hlast] at haspect ⊢
    obtain hlife | hsome := hkinds other hother
    · exact absurd (haspect.symm.trans hlife) hproperty.2
    · exact ⟨hsome, hproperty.1⟩
  · intro other hother
    obtain hother | hother := List.mem_append.1 hother
    · exact hkinds other hother
    · rw [List.mem_singleton.1 hother]
      exact .inr hproperty.1

end Access

/-! ## Native types -/

namespace Output

variable {P : Section → String → Fragment → Prop} {output other result : Output} {path : String}

theorem All.merge (h : output.All P) (hother : other.All P)
    (hmerge : (output.merge other path).toExcept = .ok result) : result.All P := by
  obtain ⟨-, rfl⟩ := Attempt.toExcept_eq_ok.1 hmerge
  exact (merge_within h hother).1

theorem All.insert {place : Section} {symbol : String} {pieces : List Piece} (h : output.All P)
    (hcode : P place symbol (.ofPieces pieces))
    (hinsert : (output.insert place symbol pieces path).toExcept = .ok result) : result.All P := by
  obtain ⟨-, rfl⟩ := Attempt.toExcept_eq_ok.1 hinsert
  exact (insert_within h hcode).1

end Output

namespace Native

open Access

variable {cx : Context} {isExternal : Bool} {document : Document} {type : NativeType}

theorem addHandle_declares {runtime : Runtime} {title stem path : String} {output result : Output}
    {functions : String → Fragment → Prop} {groups : List AccessorGroup}
    (h : output.All (Declares runtime title functions))
    (hgroups : AreBehind runtime (Names.qualified title stem) groups)
    (hadd : addHandle output (Names.objectHandle title stem) groups path = .ok result) :
    result.All (Declares runtime title functions) := by
  obtain ⟨between, hdeclared, hdefined⟩ := addHandle_inserts hadd
  have hcode : Declares runtime title functions .declarations (Names.objectHandle title stem)
      (.ofPieces [.declared groups]) := ⟨stem, groups, rfl, rfl, hgroups⟩
  have hrest : Declares runtime title functions .definitions (Names.objectHandle title stem)
      (.ofPieces [.defined groups]) := trivial
  exact (h.insert hcode hdeclared).insert hrest hdefined

/-- A native type declares enumerations and handles of its document, and no functions of methods. -/
theorem Built.declares (h : Built cx isExternal document type)
    {functions : String → Fragment → Prop} :
    type.output.All (Declares cx.runtime document.title functions) := by
  induction h with
  | primitive document type => cases type <;> exact Output.all_empty
  | enumeration document stem label description values =>
    intro place symbol code hmem
    cases place with
    | enums =>
      cases List.mem_singleton.1 hmem
      exact ⟨stem, rfl⟩
    | declarations => cases hmem
    | prototypes => cases hmem
    | _ => trivial
  | @array document isExternal element stem _ _ _ _ _ habsorb hadd ih =>
    have hbase : Names.qualified document.title (stem ++ "Array") =
        Names.qualified document.title stem ++ "Array" := (String.append_assoc ..).symm
    have houtput := Output.all_empty.merge ih habsorb
    have hgroups := @areBehind_array cx.runtime _ element.valueType
      (cx.runtime.wireArray element.wire) (cx.runtime.wireArray element.wire) ⟨_, hbase⟩
    rw [← hbase] at hadd
    exact addHandle_declares houtput hgroups hadd
  | @object document stem _ _ parts gathered _ _ hgroups hgathered hadd ih =>
    have hsoFar := Failure.foldlM_induction (P := fun soFar ↦
      soFar.output.All (Declares cx.runtime document.title functions) ∧
        ArePartsOf cx.runtime (Names.qualified document.title stem) soFar.groups)
      ⟨Output.all_empty, arePartsOf_life⟩ hgathered ?_
    · exact addHandle_declares hsoFar.1 hsoFar.2.1 hadd
    · intro part hpart soFar next hsoFar hnext
      obtain ⟨isExternal, type, group, place, output, rfl, habsorb, rfl⟩ | ⟨notice, -, rfl⟩ :=
        Part.add_cases hnext
      · exact ⟨hsoFar.1.merge (ih _ _ _ _ hpart) habsorb,
          hsoFar.2.concat (hgroups _ _ _ _ hpart)⟩
      · exact ⟨hsoFar.1.addDiagnostic notice, hsoFar.2⟩
  | map _ habsorb hadd ih =>
    exact addHandle_declares (Output.all_empty.merge ih habsorb) areBehind_map hadd
  | external => exact Output.all_of_get_eq_empty fun place ↦ by cases place <;> rfl

end Native

/-! ## Distinct symbols -/

namespace Output

variable {output other result : Output} {path : String}

/-- No two fragments of a section have the same symbol. -/
def Distinct (output : Output) : Prop := ∀ place, (output.get place).symbols.Nodup

theorem Distinct.insert {place : Section} {symbol : String} {pieces : List Piece}
    (h : output.Distinct)
    (hinsert : (output.insert place symbol pieces path).toExcept = .ok result) :
    result.Distinct := by
  obtain ⟨-, hset⟩ := insert_eq_set hinsert
  intro place'
  rw [hset]
  by_cases hplace : place' = place
  · rw [hplace, get_set_self]
    exact Fragments.nodup_insert (h place)
  · rw [get_set_of_ne output hplace]
    exact h place'

theorem merges_distinct : Merges Distinct where
  empty place := by cases place <;> exact List.nodup_nil
  congr h hget _ place := by
    rw [hget place]
    exact h place
  merge h _ hmerge place := by
    obtain ⟨hsuccess, hget⟩ := merge_get hmerge place
    rw [hget]
    exact Fragments.nodup_merge (h place) hsuccess

theorem keepsTypes_distinct (cx : Context) : KeepsTypes cx Distinct where
  enumeration e place := by
    cases place with
    | enums => exact List.nodup_singleton _
    | conversions => exact List.nodup_singleton _
    | _ => exact List.nodup_nil
  handle h hadd := by
    obtain ⟨between, hdeclared, hdefined⟩ := Native.addHandle_inserts hadd
    exact (h.insert hdeclared).insert hdefined
  container h hinsert := h.insert hinsert
  external _ _ place := by cases place <;> exact List.nodup_nil

/-- The groups of accessors that are declared, handle by handle. -/
def accessors (output : Output) : List AccessorGroup :=
  output.declarations.entries.flatMap fun entry ↦ entry.2.groups

/-- Names of the functions that the declarations have prototypes of. -/
def accessorNames (output : Output) : List String :=
  (output.declarations.entries.flatMap (·.2.prototypes)).map (·.name)

variable {runtime : Runtime} {title : String} {functions : String → Fragment → Prop}

open Access

theorem All.groups_eq (hall : output.All (Declares runtime title functions))
    {entry : String × Fragment} (hentry : entry ∈ output.declarations.entries) :
    ∃ stem, entry.1 = Names.objectHandle title stem ∧
      AreBehind runtime (Names.qualified title stem) entry.2.groups ∧
      entry.2.prototypes.map (·.name) = entry.2.groups.flatMap (·.names) := by
  obtain ⟨stem, groups, hsymbol, hpieces, hgroups⟩ := hall .declarations entry.1 entry.2 hentry
  have hcode : entry.2.groups = groups := by simp [Fragment.groups, hpieces]
  rw [hcode]
  refine ⟨stem, hsymbol, hgroups, ?_⟩
  simp [Fragment.prototypes, Piece.prototypes, hpieces, AccessorGroup.names, List.map_flatMap,
    Function.comp_def]

theorem All.accessorNames_eq (hall : output.All (Declares runtime title functions)) :
    output.accessorNames = output.accessors.flatMap (·.names) := by
  have hentries : ∀ entries : List (String × Fragment), entries ⊆ output.declarations.entries →
      (entries.flatMap (·.2.prototypes)).map (·.name) =
        (entries.flatMap fun entry ↦ entry.2.groups).flatMap (·.names) := by
    intro entries hsubset
    induction entries with
    | nil => rfl
    | cons entry rest ih =>
      obtain ⟨_, -, -, hnames⟩ := hall.groups_eq (hsubset List.mem_cons_self)
      rw [List.flatMap_cons, List.map_append, hnames, List.flatMap_cons, List.flatMap_append,
        ih fun other hother ↦ hsubset (List.mem_cons_of_mem _ hother)]
  exact hentries _ (List.Subset.refl _)

theorem All.behind (hall : output.All (Declares runtime title functions)) {g : AccessorGroup}
    (hg : g ∈ output.accessors) : ∃ stem, Behind runtime (Names.qualified title stem) g := by
  obtain ⟨entry, hentry, hmem⟩ := List.mem_flatMap.1 hg
  obtain ⟨stem, -, hgroups, -⟩ := hall.groups_eq hentry
  exact ⟨stem, hgroups.1 g hmem⟩

/-- A relation of groups holds of all pairs if it holds behind one handle and across two. -/
theorem All.pairwise_accessors (hall : output.All (Declares runtime title functions))
    (hdistinct : output.Distinct) {R : AccessorGroup → AccessorGroup → Prop}
    (hwithin : ∀ entry ∈ output.declarations.entries, ∀ base,
      AreBehind runtime base entry.2.groups → entry.2.groups.Pairwise R)
    (hacross : ∀ g ∈ output.accessors, ∀ h ∈ output.accessors, ∀ base base', base ≠ base' →
      Behind runtime base g → Behind runtime base' h → R g h) : output.accessors.Pairwise R := by
  refine List.pairwise_flatMap.2 ⟨?_, ?_⟩
  · intro entry hentry
    obtain ⟨stem, -, hgroups, -⟩ := hall.groups_eq hentry
    exact hwithin entry hentry _ hgroups
  · have hsymbols : output.declarations.entries.Pairwise fun entry entry' ↦ entry.1 ≠ entry'.1 :=
      List.pairwise_map.1 (hdistinct .declarations)
    refine hsymbols.imp_of_mem fun {entry entry'} hentry hentry' hne g hg h hh ↦ ?_
    obtain ⟨stem, hsymbol, hgroups, -⟩ := hall.groups_eq hentry
    obtain ⟨stem', hsymbol', hgroups', -⟩ := hall.groups_eq hentry'
    have hbase : Names.qualified title stem ≠ Names.qualified title stem' := by
      intro heq
      rw [hsymbol, hsymbol', Names.objectHandle, Names.objectHandle, heq] at hne
      exact hne rfl
    exact hacross g (List.mem_flatMap.2 ⟨entry, hentry, hg⟩) h
      (List.mem_flatMap.2 ⟨entry', hentry', hh⟩) _ _ hbase (hgroups.1 g hg) (hgroups'.1 h hh)

end Output

/-! ## Groups that are apart -/

namespace Code.AccessorGroup

/-- Two groups are apart if they do not both give access to the elements of arrays with the same
functions, and if no function of a property is one of another group. -/
def Apart (g h : AccessorGroup) : Prop :=
  (g.aspect = .elements → h.aspect = .elements → g.names ≠ h.names) ∧
    (g.aspect = .property ∨ h.aspect = .property → g.names.Disjoint h.names)

instance (names names' : List String) : Decidable (names.Disjoint names') :=
  decidable_of_iff _ List.disjoint_iff_ne.symm

instance : DecidableRel Apart := fun g h ↦
  inferInstanceAs (Decidable
    ((g.aspect = .elements → h.aspect = .elements → g.names ≠ h.names) ∧
      (g.aspect = .property ∨ h.aspect = .property → g.names.Disjoint h.names)))

instance : Std.Symm Apart where
  symm _ _ hapart :=
    ⟨fun haspect haspect' ↦ (hapart.1 haspect' haspect).symm,
      fun hproperty ↦ (hapart.2 hproperty.symm).symm⟩

/-- An array in place is accessed with the functions of an array type, or a property shares a
function with a map. -/
def Meets (g h : AccessorGroup) : Prop :=
  (g.aspect = .elements ∧ g.property?.isSome ∧ h.aspect = .elements ∧ h.property? = none ∧
      g.names = h.names) ∨
    (g.aspect = .property ∧ h.aspect = .entries ∧ ¬g.names.Disjoint h.names)

end Code.AccessorGroup

namespace Access

variable {runtime : Runtime} {base base' : String} {g h : AccessorGroup}

/-- All but the functions of a property by itself are called after one text. -/
theorem Behind.names_eq (hg : Behind runtime base g) (haspect : g.aspect ≠ .property) :
    ∃ own, g.names = called own g.aspect.verbs ∧ (g.aspect = .life → own = base ++ "Handle") ∧
      (g.aspect = .entries → own = base) := by
  cases hg with
  | life container => exact ⟨_, names_lifecycle, fun _ ↦ rfl, nofun⟩
  | property container name value options => exact absurd rfl haspect
  | inPlace container name element => exact ⟨_, names_elements, nofun, nofun⟩
  | elements container element hbase => exact ⟨_, names_elements, nofun, nofun⟩
  | entries container value => exact ⟨_, names_entries, nofun, fun _ ↦ rfl⟩

theorem Behind.property?_eq_none (hg : Behind runtime base g)
    (h : g.aspect = .life ∨ g.aspect = .entries) : g.property? = none := by
  cases hg with
  | property => obtain h | h := h <;> cases h
  | inPlace => obtain h | h := h <;> cases h
  | _ => rfl

theorem Behind.nodup_names (hg : Behind runtime base g) : g.names.Nodup := by
  by_cases haspect : g.aspect = .property
  · cases hg with
    | property container name value options =>
      rw [names_property]
      have hverbs : (propertyVerbs options).Nodup := by
        obtain ⟨isReadOnly, isOptional⟩ := options
        cases isReadOnly <;> cases isOptional <;> decide
      exact hverbs.map fun verb verb' heq ↦ by simpa using heq
    | _ => cases haspect
  · obtain ⟨own, hnames, -⟩ := hg.names_eq haspect
    have hverbs : g.aspect.verbs.Nodup := by cases g.aspect <;> decide
    rw [hnames]
    exact hverbs.map fun verb verb' heq ↦ by simpa using heq

/-- Groups that are apart have no function in common. Groups of one handle have to be of different
aspects, or belong to properties. -/
theorem Behind.disjoint (hg : Behind runtime base g) (hh : Behind runtime base' h)
    (hsame : g.aspect = h.aspect → base = base' → g.property?.isSome) (hapart : g.Apart h) :
    g.names.Disjoint h.names := by
  by_cases hproperty : g.aspect = .property ∨ h.aspect = .property
  · exact hapart.2 hproperty
  rw [not_or] at hproperty
  obtain ⟨own, hnames, hlife, hentries⟩ := hg.names_eq hproperty.1
  obtain ⟨own', hnames', hlife', hentries'⟩ := hh.names_eq hproperty.2
  rw [hnames, hnames']
  apply disjoint_called g.aspect.plain_verbs h.aspect.plain_verbs
  by_cases haspect : g.aspect = h.aspect
  · left
    intro hown
    cases hkind : g.aspect with
    | property => exact hproperty.1 hkind
    | elements =>
      apply hapart.1 hkind (haspect ▸ hkind)
      rw [hnames, hnames', haspect, hown]
    | life =>
      have heq := (hlife hkind).symm.trans (hown.trans (hlife' (haspect ▸ hkind)))
      have hbase : base = base' := by simpa using heq
      simpa [hg.property?_eq_none (.inl hkind)] using hsame haspect hbase
    | entries =>
      have hbase : base = base' :=
        (hentries hkind).symm.trans (hown.trans (hentries' (haspect ▸ hkind)))
      simpa [hg.property?_eq_none (.inr hkind)] using hsame haspect hbase
  · exact .inr (Aspect.disjoint_verbs haspect)

theorem Behind.names_ne_nil (hg : Behind runtime base g) : g.names ≠ [] := by
  by_cases haspect : g.aspect = .property
  · cases hg with
    | property container name value options =>
      rw [names_property]
      exact List.cons_ne_nil _ _
    | _ => cases haspect
  · obtain ⟨own, hnames, -⟩ := hg.names_eq haspect
    rw [hnames]
    cases hkind : g.aspect with
    | property => exact absurd hkind haspect
    | _ => exact List.cons_ne_nil _ _

theorem Behind.names_ne (hg : Behind runtime base g) (hnames : g.names.Disjoint h.names) :
    g.names ≠ h.names := by
  obtain ⟨name, hname⟩ := List.exists_mem_of_ne_nil _ hg.names_ne_nil
  exact fun heq ↦ hnames hname (heq ▸ hname)

/-! ## Plain properties -/

theorem plain_propertyVerbs (options : PropertyOptions) :
    ∀ verb ∈ propertyVerbs options, '_' ∉ verb.toList ∧
      verb.toList.getLast? ∈ [some 't', some 's', some 'r'] := by
  obtain ⟨isReadOnly, isOptional⟩ := options
  cases isReadOnly <;> cases isOptional <;> decide

theorem getLast?_append_verb {options : PropertyOptions} {verb text : String}
    (h : verb ∈ propertyVerbs options) :
    (text ++ verb).toList.getLast? ∈ [some 't', some 's', some 'r'] := by
  have hlast := (plain_propertyVerbs options verb h).2
  rw [String.toList_append, List.getLast?_append]
  cases hverb : verb.toList.getLast? with
  | none => simp [hverb] at hlast
  | some c => simpa [hverb] using hlast

theorem getLast?_handle {text : String} : (text ++ "Handle").toList.getLast? = some 'e' := by
  rw [String.toList_append, List.getLast?_append]
  rfl

theorem getLast?_array {text : String} : (text ++ "Array").toList.getLast? = some 'y' := by
  rw [String.toList_append, List.getLast?_append]
  rfl

/-- The handles and the arrays have no function in common with a property by itself. -/
theorem disjoint_property {base container name own : String} {value : ValueType}
    {options : PropertyOptions} {aspect : Aspect} (hname : '_' ∉ (Text.capitalize name).toList)
    (hown : own.toList.getLast? = some 'e' ∨ own.toList.getLast? = some 'y') :
    (property runtime base container name value options).names.Disjoint
      (called own aspect.verbs) := by
  intro text htext htext'
  rw [names_property] at htext
  obtain ⟨middle, hmiddle, rfl⟩ := List.mem_map.1 htext
  obtain ⟨verb, hverb, heq⟩ := List.mem_map.1 htext'
  obtain ⟨rfl, -⟩ := (Text.append_underscore_inj (aspect.plain_verbs verb hverb) hname).1 heq
  have hlast : (base ++ "_" ++ middle).toList.getLast? ∈ [some 't', some 's', some 'r'] :=
    getLast?_append_verb hmiddle
  obtain hown | hown := hown <;> rw [hown] at hlast <;> simp at hlast

theorem disjoint_properties {base base' container container' name name' : String}
    {value value' : ValueType} {options options' : PropertyOptions}
    (hname : '_' ∉ (Text.capitalize name).toList) (hname' : '_' ∉ (Text.capitalize name').toList)
    (h : base = base' → Text.capitalize name ≠ Text.capitalize name') :
    (property runtime base container name value options).names.Disjoint
      (property runtime base' container' name' value' options').names := by
  intro text htext htext'
  rw [names_property] at htext htext'
  obtain ⟨middle, hmiddle, rfl⟩ := List.mem_map.1 htext
  obtain ⟨middle', hmiddle', heq⟩ := List.mem_map.1 htext'
  obtain ⟨hwhole, hsame⟩ := (Text.append_underscore_inj hname' hname).1 heq
  obtain ⟨hbase, -⟩ := (Text.append_underscore_inj (plain_propertyVerbs _ _ hmiddle').1
    (plain_propertyVerbs _ _ hmiddle).1).1 hwhole
  exact h hbase.symm hsame.symm

/-- A plain property has no function in common with other groups, unless it meets a map. -/
theorem Behind.disjoint_plain (hg : Behind runtime base g) (hh : Behind runtime base' h)
    (haspect : g.aspect = .property)
    (hplain : ∀ name, g.property? = some name → '_' ∉ (Text.capitalize name).toList)
    (hplain' : ∀ name, h.property? = some name → '_' ∉ (Text.capitalize name).toList)
    (hproperties : base = base' → ∀ name name', g.property? = some name →
      h.property? = some name' → Text.capitalize name ≠ Text.capitalize name')
    (hmeets : ¬g.Meets h) : g.names.Disjoint h.names := by
  cases hg with
  | property container name value options =>
    have hname := hplain name rfl
    cases hh with
    | life container' =>
      rw [names_lifecycle]
      exact disjoint_property hname (.inl getLast?_handle)
    | property container' name' value' options' =>
      exact disjoint_properties hname (hplain' name' rfl)
        fun hbase ↦ hproperties hbase name name' rfl rfl
    | inPlace container' name' element' =>
      rw [names_elements]
      exact disjoint_property hname (.inr getLast?_array)
    | elements container' element' hbase =>
      obtain ⟨stem, rfl⟩ := hbase
      rw [names_elements]
      exact disjoint_property hname (.inr getLast?_array)
    | entries container' value' =>
      by_contra hshared
      exact hmeets (.inr ⟨rfl, rfl, hshared⟩)
  | _ => cases haspect

/-- Behind handles whose properties are plain, two groups are apart unless they meet. -/
theorem Behind.apart (hg : Behind runtime base g) (hh : Behind runtime base' h)
    (hplain : ∀ name, g.property? = some name → '_' ∉ (Text.capitalize name).toList)
    (hplain' : ∀ name, h.property? = some name → '_' ∉ (Text.capitalize name).toList)
    (haspects : base = base' → g.aspect = h.aspect → g.property?.isSome ∧ h.property?.isSome)
    (hproperties : base = base' → ∀ name name', g.property? = some name →
      h.property? = some name' → Text.capitalize name ≠ Text.capitalize name')
    (hmeets : ¬g.Meets h) (hmeets' : ¬h.Meets g) : g.Apart h := by
  constructor
  · intro haspect haspect' hnames
    cases hg with
    | inPlace container name element =>
      cases hh with
      | inPlace container' name' element' =>
        rw [names_elements, names_elements, called_elements_inj] at hnames
        obtain ⟨hbase, hname⟩ := (Text.append_underscore_inj (hplain _ rfl) (hplain' _ rfl)).1
          ((String.append_left_inj _).1 hnames)
        exact hproperties hbase _ _ rfl rfl hname
      | elements container' element' => exact hmeets (.inl ⟨rfl, rfl, rfl, rfl, hnames⟩)
      | _ => cases haspect'
    | elements container element =>
      cases hh with
      | inPlace container' name' element' => exact hmeets' (.inl ⟨rfl, rfl, rfl, rfl, hnames.symm⟩)
      | elements container' element' =>
        rw [names_elements, names_elements, called_elements_inj] at hnames
        exact Bool.false_ne_true (haspects hnames rfl).1
      | _ => cases haspect'
    | _ => cases haspect
  · rintro (haspect | haspect)
    · exact hg.disjoint_plain hh haspect hplain hplain' hproperties hmeets
    · refine (hh.disjoint_plain hg haspect hplain' hplain ?_ hmeets').symm
      exact fun hbase name name' hname hname' ↦ (hproperties hbase.symm _ _ hname' hname).symm

end Access

namespace Output

open Access

variable {output : Output} {runtime : Runtime} {title : String}
  {functions : String → Fragment → Prop}

/-- No two functions have the same name exactly if all groups are apart. -/
theorem All.nodup_accessorNames_iff (hall : output.All (Declares runtime title functions))
    (hdistinct : output.Distinct) :
    output.accessorNames.Nodup ↔ output.accessors.Pairwise AccessorGroup.Apart := by
  rw [hall.accessorNames_eq, List.nodup_flatMap]
  constructor
  · rintro ⟨-, hdisjoint⟩
    refine hdisjoint.imp_of_mem fun {g h} hg hh hnames ↦ ?_
    obtain ⟨base, hbehind⟩ := hall.behind hg
    exact ⟨fun _ _ ↦ hbehind.names_ne hnames, fun _ ↦ hnames⟩
  · intro hapart
    constructor
    · intro g hg
      obtain ⟨base, hbehind⟩ := hall.behind hg
      exact hbehind.nodup_names
    · have hdisjoint :
          output.accessors.Pairwise fun g h ↦ g.Apart h → g.names.Disjoint h.names := by
        apply hall.pairwise_accessors hdistinct
        · intro entry hentry base hgroups
          refine hgroups.2.imp_of_mem fun {g h} hg hh haspects hapart ↦ ?_
          exact (hgroups.1 g hg).disjoint (hgroups.1 h hh) (fun hsame _ ↦ (haspects hsame).1) hapart
        · intro g hg h hh base base' hbase hbehind hbehind' hapart
          exact hbehind.disjoint hbehind' (fun _ heq ↦ absurd heq hbase) hapart
      exact hdisjoint.imp₂ (fun g h himp hapart ↦ himp hapart) hapart

/-- Capitalized names of the properties that groups are about. -/
def memberNames (groups : List AccessorGroup) : List String :=
  (groups.filterMap (·.property?)).map Text.capitalize

/-- Behind each handle, the capitalized names of the properties are distinct and without an
underscore. -/
structure PlainProperties (output : Output) : Prop where
  distinct : ∀ entry ∈ output.declarations.entries, (memberNames entry.2.groups).Nodup
  plain : ∀ member ∈ memberNames output.accessors, '_' ∉ member.toList

instance (output : Output) : Decidable output.PlainProperties :=
  decidable_of_iff
    ((∀ entry ∈ output.declarations.entries, (memberNames entry.2.groups).Nodup) ∧
      ∀ member ∈ memberNames output.accessors, '_' ∉ member.toList)
    ⟨fun h ↦ ⟨h.1, h.2⟩, fun h ↦ ⟨h.distinct, h.plain⟩⟩

theorem PlainProperties.of_mem (h : output.PlainProperties) {g : AccessorGroup}
    (hg : g ∈ output.accessors) :
    ∀ name, g.property? = some name → '_' ∉ (Text.capitalize name).toList :=
  fun name hname ↦
    h.plain _ (List.mem_map.2 ⟨name, List.mem_filterMap.2 ⟨g, hg, hname⟩, rfl⟩)

/-- Where properties are plain, functions have the same name only if two groups meet. -/
theorem All.nodup_accessorNames_iff_of_plain (hall : output.All (Declares runtime title functions))
    (hdistinct : output.Distinct) (hplain : output.PlainProperties) :
    output.accessorNames.Nodup ↔
      ∀ g ∈ output.accessors, ∀ h ∈ output.accessors, ¬g.Meets h := by
  rw [hall.nodup_accessorNames_iff hdistinct]
  constructor
  · intro hpairs g hg h hh hmeets
    have hne : g ≠ h := by
      rintro rfl
      obtain ⟨-, hsome, -, hnone, -⟩ | ⟨hproperty, hentries, -⟩ := hmeets
      · simp [hnone] at hsome
      · cases hproperty.symm.trans hentries
    have hapart : g.Apart h := hpairs.forall hg hh hne
    obtain ⟨haspect, -, haspect', -, hnames⟩ | ⟨haspect, -, hshared⟩ := hmeets
    · exact hapart.1 haspect haspect' hnames
    · exact hshared (hapart.2 (.inl haspect))
  · intro hmeets
    apply hall.pairwise_accessors hdistinct
    · intro entry hentry base hgroups
      have hmem : ∀ {g}, g ∈ entry.2.groups → g ∈ output.accessors :=
        fun hg ↦ List.mem_flatMap.2 ⟨entry, hentry, hg⟩
      have hproperties := List.pairwise_filterMap.1
        (List.pairwise_map.1 (hplain.distinct entry hentry))
      refine (hgroups.2.and hproperties).imp_of_mem fun {g h} hg hh hpair ↦ ?_
      exact (hgroups.1 g hg).apart (hgroups.1 h hh) (hplain.of_mem (hmem hg))
        (hplain.of_mem (hmem hh)) (fun _ ↦ hpair.1)
        (fun _ name name' hname hname' ↦ hpair.2 name hname name' hname')
        (hmeets g (hmem hg) h (hmem hh)) (hmeets h (hmem hh) g (hmem hg))
    · intro g hg h hh base base' hbase hbehind hbehind'
      exact hbehind.apart hbehind' (hplain.of_mem hg) (hplain.of_mem hh)
        (fun heq ↦ absurd heq hbase) (fun heq ↦ absurd heq hbase) (hmeets g hg h hh)
        (hmeets h hh g hg)

end Output

/-- The functions that a mapped type declares have different names exactly if its groups of
accessors are apart, which is about arrays and properties only. Where properties are plain it fails
only for an array in place that is named like an array type, and for a property that shares a
function with a map. -/
theorem accessors_are_declared_once_iff {cx : Context} {document : Document} {node : Node}
    {request : Request} {session session' : Session} {type : NativeType}
    (h : Native.Ends cx document node request session (.ok type) session') :
    (type.output.accessorNames.Nodup ↔ type.output.accessors.Pairwise AccessorGroup.Apart) ∧
      (type.output.PlainProperties → (type.output.accessorNames.Nodup ↔
        ∀ g ∈ type.output.accessors, ∀ h ∈ type.output.accessors, ¬g.Meets h)) := by
  obtain ⟨budget, hrun⟩ := h
  obtain ⟨isExternal, hbuilt, -⟩ := Native.map_built cx budget hrun
  have hdistinct := hbuilt.output_good Output.merges_distinct (Output.keepsTypes_distinct cx)
  have hdeclares : type.output.All
      (Access.Declares cx.runtime document.title fun _ _ ↦ False) := hbuilt.declares
  exact ⟨hdeclares.nodup_accessorNames_iff hdistinct,
    hdeclares.nodup_accessorNames_iff_of_plain hdistinct⟩

namespace Sheet

open Mapping

def content : Json := .object [("$id", .string "Sheet"), ("title", .string "Sheet"),
  ("definitions", .object [])]

theorem isSome_read : (Document.read content).toOption.isSome := by cbv

def sheet : Document := (Document.read content).toOption.get isSome_read

def cx : Context := ⟨⟨[sheet]⟩, {}⟩

def request : Request := ⟨"grid", "", "Sheet#/grid"⟩

def list (element : Node) : Node := .ofKind (.array (.single element))

def number : Node := .ofKind (.primitive .integer none)

def object (properties : List (String × Node)) : Node :=
  .ofKind (.object (.mk (some properties) none none false))

/-- A list in place, and notes by name. -/
def row : Node := object [("cells", list number),
  ("notes", .ofKind (.object (.mk none none (some (.ofKind (.primitive .string none))) false)))]

/-- A list of lists in place. -/
def grid : Node := object [("rows", list (list number))]

theorem run_row : (Native.map cx 6 sheet row request {}).any (fun run ↦
    run.1.toOption.any fun type ↦
      type.output.declarations.symbols == ["Sheet_Grid_NotesHandle", "Sheet_GridHandle"] &&
        decide (type.output.accessors.Pairwise AccessorGroup.Apart)) = true := by
  decide +kernel

/-- All functions of the two handles of a row have different names. -/
theorem rows_are_declared_once : ∃ type session,
    Native.Ends cx sheet row request {} (.ok type) session ∧
      type.output.declarations.symbols = ["Sheet_Grid_NotesHandle", "Sheet_GridHandle"] ∧
        type.output.accessorNames.Nodup := by
  obtain ⟨type, session, hrun, hcheck⟩ := exists_ok_of_any run_row
  obtain ⟨hsymbols, hapart⟩ := (Bool.and_eq_true _ _).mp hcheck
  have hends : Native.Ends cx sheet row request {} (.ok type) session := ⟨6, hrun⟩
  exact ⟨type, session, hends, beq_iff_eq.1 hsymbols,
    (accessors_are_declared_once_iff hends).1.2 (of_decide_eq_true hapart)⟩

theorem run_grid : (Native.map cx 6 sheet grid request {}).any (fun run ↦
    run.1.toOption.any fun type ↦
      decide (type.output.PlainProperties ∧ ¬type.output.accessorNames.Nodup)) = true := by
  decide +kernel

/-- The functions of the rows in place are declared again for the handle of a row. -/
theorem rows_are_declared_twice : ∃ type session,
    Native.Ends cx sheet grid request {} (.ok type) session ∧
      type.output.PlainProperties ∧ ¬type.output.accessorNames.Nodup := by
  obtain ⟨type, session, hrun, hcheck⟩ := exists_ok_of_any run_grid
  exact ⟨type, session, ⟨6, hrun⟩, of_decide_eq_true hcheck⟩

end Sheet

end SchemaBindings
