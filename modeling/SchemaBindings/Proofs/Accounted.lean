import SchemaBindings.Proofs.Resolution
import SchemaBindings.Proofs.Settled

/-!
# Accounted outputs

An output is accounted for if each of its fragments is code of a type that is declared in the
document, or stands under a symbol that functions of the document have. The types that a mapper
comes to from tidy schemas have such outputs, and putting them together goes wrong over a function
at most. This is gone through schema by schema, first on the native and then on the wire side.
-/

namespace SchemaBindings

open Code Mapping

/-- The fragment is code of a declared type or stands under the symbol of a function. -/
def Accounts (cx : Context) (roots : Visit → Prop) (isFunction : String → Prop)
    (document : Document) (registry : Registry) (place : Section) (symbol : String)
    (code : Fragment) : Prop :=
  Explains cx roots document registry place symbol code ∨
    (place ∈ [Section.prototypes, .implementations] ∧ isFunction symbol)

/-- Registries are sound, and names of functions may collide. -/
def functionRules (library : Library) (roots : Visit → Prop) (isFunction : String → Prop) :
    Rules where
  holds registry := registry.Sound library roots
  allows failure := ∀ symbol path, failure = .nameCollision symbol path → isFunction symbol
  allows_fault := by
    rintro _ hfault symbol path rfl
    cases hfault

theorem allows_of_isCollision {library : Library} {roots : Visit → Prop}
    {isFunction : String → Prop} {failure : Failure} (h : failure.isCollision = false) :
    (functionRules library roots isFunction).allows failure := by
  rintro symbol path rfl
  cases h

variable {cx : Context} {roots : Visit → Prop} {isFunction : String → Prop} {document : Document}
  {registry registry' : Registry} {before : Registry → Prop}

theorem Accounts.extends {place : Section} {symbol : String} {code : Fragment}
    (h : Accounts cx roots isFunction document registry place symbol code)
    (hextends : registry.Extends registry') :
    Accounts cx roots isFunction document registry' place symbol code :=
  h.imp (·.extends hextends) id

theorem stable_accounted (output : Output) :
    Stable fun registry ↦ output.All (Accounts cx roots isFunction document registry) :=
  fun _ _ h hextends ↦ h.imp fun _ _ _ hcode ↦ hcode.extends hextends

/-- Only functions clash among fragments that are accounted for. -/
theorem allows_of_clash (htidy : Tidy cx.library roots) (hsound : registry.Sound cx.library roots)
    {failure : Failure} (h : Clash (Accounts cx roots isFunction document registry) failure) :
    (functionRules cx.library roots isFunction).allows failure := by
  obtain ⟨place, symbol, path, code, code', rfl, hcode, hcode', hne⟩ := h
  rintro _ _ ⟨⟩
  obtain hcode | ⟨-, hfunction⟩ := hcode
  · obtain hcode' | ⟨-, hfunction⟩ := hcode'
    · exact absurd (congrArg Fragment.text (hcode.unique htidy hsound hcode')) hne
    · exact hfunction
  · exact hfunction

section Outputs

variable (htidy : Tidy cx.library roots) {output other : Output} {path : String}
include htidy

theorem obeys_within (document : Document) {attempt : Attempt Output}
    (h : ∀ registry, before registry →
      attempt.Within (Output.All (Accounts cx roots isFunction document registry))
        (Clash (Accounts cx roots isFunction document registry))) :
    Obeys (functionRules cx.library roots isFunction) before (Mapping.ofExcept attempt.toExcept)
      fun registry output ↦
        output.All (Accounts cx roots isFunction document registry) ∧ before registry :=
  obeys_ofExcept fun registry hsound hstart ↦
    (h registry hstart).meets (fun _ houtput ↦ ⟨houtput, hstart⟩) fun _ hclash ↦
      allows_of_clash htidy hsound hclash

theorem obeys_merge (document : Document)
    (h : ∀ registry, before registry →
      output.All (Accounts cx roots isFunction document registry))
    (hother : ∀ registry, before registry →
      other.All (Accounts cx roots isFunction document registry)) :
    Obeys (functionRules cx.library roots isFunction) before
      (Mapping.ofExcept (output.merge other path).toExcept) fun registry output ↦
        output.All (Accounts cx roots isFunction document registry) ∧ before registry :=
  obeys_within htidy document fun registry hstart ↦
    Output.merge_within (h registry hstart) (hother registry hstart)

end Outputs

/-- A declared type gets its stem, and what was known before stays known. -/
theorem claim_accounted {v : Visit} {d : Declared} (hv : Visited cx.library roots v)
    (hdeclared : v.declared? = some d) (hbefore : Stable before) (scope preferred : String) :
    Obeys (functionRules cx.library roots isFunction) before
      ((v.request scope).claim cx.library v.document d.kind preferred) fun registry stem ↦
        registry.stem? v.path = some stem ∧ before registry :=
  obeys_claim hbefore fun _ hsound ↦ hsound.claim hv hdeclared _

/-! ## Native types -/

namespace Native

/-- The output of the type is accounted for. -/
abbrev Yields (cx : Context) (roots : Visit → Prop) (isFunction : String → Prop)
    (document : Document) (mapping : Mapping NativeType) : Prop :=
  Obeys (functionRules cx.library roots isFunction) (fun _ ↦ True) mapping fun registry type ↦
    type.output.All (Accounts cx roots isFunction document registry)

section

variable {v : Visit} {d : Declared} {label stem : String} {budget : Nat}
  (hv : Visited cx.library roots v)
include hv

omit hv in
theorem yields_pure {type : NativeType} (h : type.output = {}) :
    Yields cx roots isFunction document (pure type) := by
  refine obeys_pure fun registry _ _ ↦ ?_
  rw [h]
  exact Output.all_empty

theorem addHandle_accounted (htidy : Tidy cx.library roots) (hdeclared : v.declared? = some d)
    {output : Output} {handle path : String} {groups : List AccessorGroup}
    (houtput : ∀ registry, before registry →
      output.All (Accounts cx roots isFunction v.document registry))
    (hstem : ∀ registry, before registry → registry.stem? v.path = some stem)
    (hhandles : ∀ registry, before registry →
      d.Handles cx registry v.document v.path stem handle groups) :
    Obeys (functionRules cx.library roots isFunction) before
      (Mapping.ofExcept (addHandle output handle groups path)) fun registry output ↦
        output.All (Accounts cx roots isFunction v.document registry) ∧ before registry := by
  refine obeys_within htidy v.document fun registry hstart ↦ ?_
  have hdeclaration := Explains.intro hv rfl hdeclared (hstem registry hstart)
    (.declaration (hhandles registry hstart))
  have hdefinition := Explains.intro hv rfl hdeclared (hstem registry hstart)
    (.definition (hhandles registry hstart))
  exact (Output.insert_within (houtput registry hstart) (.inl hdeclaration)).andThen
    fun _ hinserted ↦ Output.insert_within hinserted (.inl hdefinition)

theorem enumeration_accounted (hlabel : v.label = .ok label) {values : List String}
    (hkind : v.node.kind = .enumeration values) (scope : String) :
    Yields cx roots isFunction v.document
      (enumeration cx v.document v.node values label (v.request scope)) := by
  have hdeclared := Visit.declared?_enumeration hlabel hkind
  refine (claim_accounted hv hdeclared stable_true scope label).bind fun stem ↦
    obeys_pure fun registry _ hstart ↦ ?_
  intro place symbol code hmem
  have hcode : ∀ {place pieces}, (Declared.enumeration label v.node.description values).Emits cx
      registry v.document v.path stem place (Names.qualified v.document.title stem) pieces →
        Accounts cx roots isFunction v.document registry place
          (Names.qualified v.document.title stem) (.ofPieces pieces) :=
    fun hemits ↦ .inl (.intro hv rfl hdeclared hstart.1 hemits)
  cases place with
  | enums =>
    cases List.mem_singleton.1 hmem
    exact hcode .enumeration
  | conversions =>
    cases List.mem_singleton.1 hmem
    exact hcode .conversion
  | _ => cases hmem

omit hv

/-- All schemas that a mapper comes to have types whose outputs are accounted for. -/
def MapYields (cx : Context) (roots : Visit → Prop) (isFunction : String → Prop) (budget : Nat) :
    Prop :=
  ∀ v scope, Visited cx.library roots v →
    Yields cx roots isFunction v.document (map cx budget v.document v.node (v.request scope))

theorem MapYields.settles (h : MapYields cx roots isFunction budget) {v : Visit}
    (hv : Visited cx.library roots v) (scope scope' : String) :
    Obeys (functionRules cx.library roots isFunction) (fun _ ↦ True)
      (map cx budget v.document v.node (v.request scope)) fun registry type ↦
        type.output.All (Accounts cx roots isFunction v.document registry) ∧
          Settles registry (fun budget ↦ map cx budget v.document v.node (v.request scope'))
            (.ok type) :=
  (h v scope hv).settles (fun budget ↦ map cx budget v.document v.node (v.request scope'))
    (map_replays cx budget v.document v.node v.name scope scope' v.path)

include hv

variable (htidy : Tidy cx.library roots) (h : MapYields cx roots isFunction budget)
include h

theorem reference_accounted {reference : String} (hkind : v.node.kind = .reference reference)
    (scope : String) : Yields cx roots isFunction v.document
      (Native.reference cx (map cx budget) v.document reference (v.request scope)) := by
  refine obeys_faults_bind (cx.library.resolve_faults _ _ _) fun target htarget ↦ ?_
  refine ((h (.ofTarget target) "" (hv.step (.target hkind htarget))).following _ _).bind
    fun type ↦ obeys_pure fun registry _ htype ↦ ?_
  split
  · exact Output.all_of_get_eq_empty fun place ↦ by cases place <;> rfl
  · have howner := Library.owner_eq_of_not_isExternal htarget ‹_›
    rw [← howner]
    exact htype

include htidy

theorem array_accounted (hlabel : v.label = .ok label) {items : Items}
    (hkind : v.node.kind = .array items) (scope : String) :
    Yields cx roots isFunction v.document
      (array cx (map cx budget) v.document items label (v.request scope)) := by
  refine obeys_ofExcept_bind
    (fun _ hfailure ↦ allows_of_isCollision (Items.element_fails hfailure).1) fun item hitem ↦ ?_
  have hdeclared := Visit.declared?_array hlabel hkind hitem
  have helement := h.settles (hv.step (.element hkind hlabel hitem)) scope ""
  refine helement.bind fun element ↦ ?_
  refine (claim_accounted hv hdeclared ((stable_accounted element.output).and
    (stable_settles _ _)) scope _).bind fun stem ↦ ?_
  refine (obeys_merge htidy v.document (fun _ _ ↦ Output.all_empty) fun _ hstart ↦ hstart.2.1).bind
    fun output ↦ ?_
  refine (addHandle_accounted hv htidy hdeclared (fun _ hstart ↦ hstart.1)
    (fun _ hstart ↦ hstart.2.1) fun _ hstart ↦ .array hstart.2.2.2).bind fun output ↦ ?_
  exact obeys_pure fun _ _ hstart ↦ hstart.1

theorem dictionary_accounted (hlabel : v.label = .ok label) {schema : ObjectSchema}
    {additional : Node} (hkind : v.node.kind = .object schema)
    (hplain : schema.hasProperties = false) (hadditional : schema.additional = some additional)
    (scope : String) : Yields cx roots isFunction v.document
      (dictionary cx (map cx budget) v.document additional label (v.request scope)) := by
  have hdeclared := Visit.declared?_map hlabel hkind hplain hadditional
  refine (claim_accounted hv hdeclared stable_true scope label).bind fun stem ↦ ?_
  have hvalue := h.settles (hv.step (.value hkind hplain hadditional)) stem stem
  refine (hvalue.keep ((stable_stem? v.path stem).and stable_true)).bind fun value ↦ ?_
  refine (obeys_merge htidy v.document (fun _ _ ↦ Output.all_empty) fun _ hstart ↦ hstart.1.1).bind
    fun output ↦ ?_
  refine (addHandle_accounted hv htidy hdeclared (fun _ hstart ↦ hstart.1)
    (fun _ hstart ↦ hstart.2.2.1) fun _ hstart ↦ .map hstart.2.1.2).bind fun output ↦ ?_
  exact obeys_pure fun _ _ hstart ↦ hstart.1

omit htidy in
theorem property_accounted {schema : ObjectSchema} (hkind : v.node.kind = .object schema)
    {name : String} {child : Node} (hmember : (name, child) ∈ schema.members) (parent : Parent)
    (isOptional : Bool) (scope : String) :
    Obeys (functionRules cx.library roots isFunction) (fun _ ↦ True)
      (property cx (map cx budget) v.document parent isOptional name child
        ((v.request scope).property parent.stem name)) fun registry found ↦
          found.1.output.All (Accounts cx roots isFunction v.document registry) := by
  by_cases hchild : ∃ items, child.kind = .array items
  · obtain ⟨items, hitems⟩ := hchild
    unfold property
    rw [hitems]
    refine obeys_ofExcept_bind
      (fun _ hfailure ↦ allows_of_isCollision (Items.element_fails hfailure).1) fun item hitem ↦ ?_
    refine (h _ parent.stem (hv.step (.propertyElement hkind hmember hitems hitem))).bind
      fun element ↦ obeys_pure fun _ _ helement ↦ helement
  · have hproperty : property cx (map cx budget) v.document parent isOptional name child
        ((v.request scope).property parent.stem name) = (do
          let value ← map cx budget v.document child ((v.request scope).property parent.stem name)
          pure (value, Access.property cx.runtime parent.base parent.container name
            value.valueType ⟨child.kind.isConstant, isOptional⟩)) := by
      unfold property
      split
      · exact absurd ⟨_, ‹_›⟩ hchild
      · rfl
    rw [hproperty]
    exact (h _ parent.stem (hv.step (.property hkind hmember))).bind
      fun value ↦ obeys_pure fun _ _ hvalue ↦ hvalue

/-- What is known of an object when some of its properties have been gone through. -/
def Gathers (cx : Context) (roots : Visit → Prop) (isFunction : String → Prop) (v : Visit)
    (schema : ObjectSchema) (stem : String) (done : List (String × Node)) (soFar : Gathered)
    (registry : Registry) : Prop :=
  (soFar.output.All (Accounts cx roots isFunction v.document registry) ∧
    registry.stem? v.path = some stem) ∧
    ∃ results, List.Forall₂ (SettlesProperty cx registry v.document
      (.of cx v.document stem) schema v.path) done results ∧
      soFar.groups = Access.lifecycle cx.runtime (Names.qualified v.document.title stem ++ "Handle")
        (cx.runtime.wireContainer v.document.title stem) :: groups results

omit hv h htidy in
theorem stable_gathers (schema : ObjectSchema) (done : List (String × Node)) (soFar : Gathered) :
    Stable (Gathers cx roots isFunction v schema stem done soFar) := by
  rintro registry registry' ⟨hknown, results, hresults, hgroups⟩ hextends
  refine ⟨((stable_accounted _).and (stable_stem? _ _)) hknown hextends, results, ?_, hgroups⟩
  exact hresults.imp fun _ _ hentry ↦ hentry.extends hextends

omit hv h htidy in
theorem Gathers.snoc {schema : ObjectSchema} {done : List (String × Node)} {soFar : Gathered}
    (hgathers : Gathers cx roots isFunction v schema stem done soFar registry)
    {entry : String × Node} {result : Except Failure (NativeType × AccessorGroup)}
    (hentry : SettlesProperty cx registry v.document (.of cx v.document stem) schema v.path entry
      result) {output : Output}
    (houtput : output.All (Accounts cx roots isFunction v.document registry)) :
    Gathers cx roots isFunction v schema stem (done ++ [entry])
      ⟨output, soFar.groups ++ groups [result]⟩ registry := by
  obtain ⟨⟨-, hstem⟩, results, hresults, hgroups⟩ := hgathers
  refine ⟨⟨houtput, hstem⟩, results ++ [result], List.rel_append hresults (.cons hentry .nil), ?_⟩
  rw [hgroups]
  unfold groups
  rw [List.filterMap_append, List.cons_append]

theorem addProperty_accounted {schema : ObjectSchema} (hkind : v.node.kind = .object schema)
    (done rest : List (String × Node)) (entry : String × Node)
    (hmembers : schema.members = done ++ entry :: rest) (soFar : Gathered) (scope : String) :
    Obeys (functionRules cx.library roots isFunction)
      (Gathers cx roots isFunction v schema stem done soFar)
      (addProperty cx (map cx budget) v.document (.of cx v.document stem) schema (v.request scope)
        soFar entry) fun registry soFar ↦
          Gathers cx roots isFunction v schema stem (done ++ [entry]) soFar registry := by
  have hmember : entry ∈ schema.members := by
    rw [hmembers]
    exact List.mem_append_right done (.head rest)
  have hproperty := (property_accounted hv h hkind hmember (.of cx v.document stem)
    (schema.isOptional entry.1) scope).attempt_settles
    (fun budget ↦ property cx (map cx budget) v.document (.of cx v.document stem)
      (schema.isOptional entry.1) entry.1 entry.2 ((v.request scope).property stem entry.1))
    (property_replays budget _ _ _ _ _)
  refine (hproperty.keep (stable_gathers schema done soFar)).bind fun mapped ↦ ?_
  cases mapped with
  | ok found =>
    refine (obeys_merge htidy v.document (fun _ hstart ↦ hstart.2.1.1)
      fun _ hstart ↦ hstart.1.1).bind fun output ↦ obeys_pure fun registry _ hstart ↦ ?_
    obtain ⟨houtput, ⟨-, hsettles⟩, hgathers⟩ := hstart
    exact hgathers.snoc (hsettles (not_cyclic_ok found)) houtput
  | error failure =>
    refine obeys_ite_warn (fun hrecoverable registry _ hstart ↦ ?_) fun _ _ hstart ↦ hstart.1.1
    obtain ⟨⟨-, hsettles⟩, hgathers⟩ := hstart
    have hsnoc := hgathers.snoc (hsettles (not_cyclic_of_isRecoverable hrecoverable))
      (hgathers.1.1.addDiagnostic (.ofFailure failure))
    rw [show groups [.error failure] = [] from rfl, List.append_nil] at hsnoc
    exact hsnoc

theorem object_accounted (hlabel : v.label = .ok label) {schema : ObjectSchema}
    (hkind : v.node.kind = .object schema) (hproperties : schema.hasProperties = true)
    (scope : String) : Yields cx roots isFunction v.document
      (Native.object cx (map cx budget) v.document schema label (v.request scope)) := by
  have hdeclared := Visit.declared?_object hlabel hkind hproperties
  refine (claim_accounted hv hdeclared stable_true scope label).bind fun stem ↦ ?_
  let start : Gathered := ⟨{}, [Access.lifecycle cx.runtime
    (Names.qualified v.document.title stem ++ "Handle")
    (cx.runtime.wireContainer v.document.title stem)]⟩
  have hgather : Obeys (functionRules cx.library roots isFunction)
      (Gathers cx roots isFunction v schema stem [] start)
      (schema.members.foldlM (addProperty cx (map cx budget) v.document (.of cx v.document stem)
        schema (v.request scope)) start) fun registry soFar ↦
          Gathers cx roots isFunction v schema stem schema.members soFar registry :=
    obeys_foldlM fun done entry rest hmembers soFar ↦
      addProperty_accounted hv htidy h hkind done rest entry hmembers soFar scope
  refine (hgather.imp (fun registry hstart ↦ ?_) fun _ _ hend ↦ hend).bind fun gathered ↦ ?_
  · exact ⟨⟨Output.all_empty, hstart.1⟩, [], .nil, rfl⟩
  refine (addHandle_accounted hv htidy hdeclared (fun _ hstart ↦ hstart.1.1)
    (fun _ hstart ↦ hstart.1.2) fun registry hstart ↦ ?_).bind fun output ↦ ?_
  · obtain ⟨-, results, hresults, hgroups⟩ := hstart
    rw [hgroups]
    exact .object hresults
  · exact obeys_pure fun _ _ hstart ↦ hstart.1

theorem objectLike_accounted (hlabel : v.label = .ok label) {schema : ObjectSchema}
    (hkind : v.node.kind = .object schema) (scope : String) :
    Yields cx roots isFunction v.document
      (objectLike cx (map cx budget) v.document schema label (v.request scope)) := by
  unfold objectLike
  split
  · exact object_accounted hv htidy h hlabel hkind ‹_› scope
  · split
    · exact dictionary_accounted hv htidy h hlabel hkind (Bool.eq_false_iff.2 ‹_›) ‹_› scope
    · split
      · exact obeys_fail fun _ _ ↦ allows_of_isCollision rfl
      · exact yields_pure rfl

end

/-- Every schema that a mapper comes to has a native type whose output is accounted for. -/
theorem map_accounted (htidy : Tidy cx.library roots) (budget : Nat) :
    MapYields cx roots isFunction budget := by
  induction budget with
  | zero => exact fun _ _ _ ↦ obeys_exhausted
  | succ budget ih =>
    intro v scope hv
    have hlabelled : ∀ {next : String → Mapping NativeType},
        (∀ label, v.label = .ok label → Yields cx roots isFunction v.document (next label)) →
          Yields cx roots isFunction v.document
            (Mapping.ofExcept ((v.request scope).label v.node) >>= next) :=
      fun h ↦ obeys_ofExcept_bind
        (fun _ hfailure ↦ allows_of_isCollision (Request.label_fails hfailure).1) h
    change Yields cx roots isFunction v.document
      (step cx (mergeAllOf cx.library budget) (map cx budget) v.document v.node (v.request scope))
    unfold step
    split
    · exact reference_accounted hv ih ‹_› scope
    · refine hlabelled fun label hlabel ↦ ?_
      split
      case h_1 =>
        unfold constant
        split
        · exact yields_pure (by unfold NativeType.ofPrimitive; split <;> rfl)
        · exact obeys_fail fun _ _ ↦ allows_of_isCollision rfl
      case h_2 => exact enumeration_accounted hv hlabel ‹_› scope
      case h_3 => exact array_accounted hv htidy ih hlabel ‹_› scope
      case h_4 members hkind =>
        refine (mergeAllOf_obeys budget _ _ members _).bind fun merged ↦ ?_
        intro session result session' hrun hholds hstart
        exact ih _ scope (hv.step (.merged hkind hlabel hstart.2)) hrun hholds trivial
      case h_5 => exact objectLike_accounted hv htidy ih hlabel ‹_› scope
      case h_6 => exact yields_pure (by unfold NativeType.ofPrimitive; split <;> rfl)
      all_goals exact obeys_fail fun _ _ ↦ allows_of_isCollision rfl

end Native

/-! ## Wire types -/

namespace Wire

/-- The output of the type is accounted for. -/
abbrev Yields (cx : Context) (roots : Visit → Prop) (isFunction : String → Prop)
    (document : Document) (mapping : Mapping WireType) : Prop :=
  Obeys (functionRules cx.library roots isFunction) (fun _ ↦ True) mapping fun registry type ↦
    type.output.All (Accounts cx roots isFunction document registry)

/-- All schemas that a mapper comes to have types whose outputs are accounted for. -/
def MapYields (cx : Context) (roots : Visit → Prop) (isFunction : String → Prop) (budget : Nat) :
    Prop :=
  ∀ v scope, Visited cx.library roots v →
    Yields cx roots isFunction v.document (map cx budget v.document v.node (v.request scope))

/-- What is known of an object when some of its properties have been gone through. -/
def Gathers (cx : Context) (roots : Visit → Prop) (isFunction : String → Prop) (v : Visit)
    (stem : String) (done : List (String × Node)) (soFar : Gathered) (registry : Registry) :
    Prop :=
  (soFar.output.All (Accounts cx roots isFunction v.document registry) ∧
    registry.stem? v.path = some stem) ∧
    ∃ results, List.Forall₂ (SettlesMember cx registry v.document stem v.path) done results ∧
      soFar.members = members results

section

variable {v : Visit} {label stem : String} {budget : Nat}

theorem yields_named (name : String) :
    Yields cx roots isFunction document (pure (.named name)) :=
  obeys_pure fun _ _ _ ↦ Output.all_empty

theorem stable_gathers (done : List (String × Node)) (soFar : Gathered) :
    Stable (Gathers cx roots isFunction v stem done soFar) := by
  rintro registry registry' ⟨hknown, results, hresults, hmembers⟩ hextends
  refine ⟨((stable_accounted _).and (stable_stem? _ _)) hknown hextends, results, ?_, hmembers⟩
  refine hresults.imp ?_
  rintro entry _ ⟨type, htype, rfl⟩
  exact ⟨type, htype.extends hextends, rfl⟩

theorem Gathers.snoc {done : List (String × Node)} {soFar : Gathered}
    (hgathers : Gathers cx roots isFunction v stem done soFar registry) {entry : String × Node}
    {result : Except Failure Member}
    (hentry : SettlesMember cx registry v.document stem v.path entry result) {output : Output}
    (houtput : output.All (Accounts cx roots isFunction v.document registry)) :
    Gathers cx roots isFunction v stem (done ++ [entry])
      ⟨output, soFar.members ++ members [result]⟩ registry := by
  obtain ⟨⟨-, hstem⟩, results, hresults, hmembers⟩ := hgathers
  refine ⟨⟨houtput, hstem⟩, results ++ [result], List.rel_append hresults (.cons hentry .nil), ?_⟩
  rw [hmembers]
  exact List.filterMap_append.symm

variable (hv : Visited cx.library roots v) (h : MapYields cx roots isFunction budget)
include hv h

theorem reference_accounted {reference : String} (hkind : v.node.kind = .reference reference)
    (scope : String) : Yields cx roots isFunction v.document
      (Wire.reference cx (map cx budget) v.document reference (v.request scope)) := by
  refine obeys_faults_bind (cx.library.resolve_faults _ _ _) fun target htarget ↦ ?_
  refine ((h (.ofTarget target) "" (hv.step (.target hkind htarget))).following _ _).bind
    fun type ↦ obeys_pure fun registry _ htype ↦ ?_
  split
  · exact Output.all_of_get_eq_empty fun place ↦ by cases place <;> rfl
  · have howner := Library.owner_eq_of_not_isExternal htarget ‹_›
    rw [← howner]
    exact htype

variable (htidy : Tidy cx.library roots)
include htidy

theorem array_accounted (hlabel : v.label = .ok label) {items : Items}
    (hkind : v.node.kind = .array items) (scope : String) :
    Yields cx roots isFunction v.document
      (array cx (map cx budget) v.document items label (v.request scope)) := by
  refine obeys_ofExcept_bind
    (fun _ hfailure ↦ allows_of_isCollision (Items.element_fails hfailure).1) fun item hitem ↦ ?_
  refine (h _ scope (hv.step (.element hkind hlabel hitem))).bind fun element ↦ ?_
  refine (obeys_merge htidy v.document (fun _ _ ↦ Output.all_empty) fun _ hstart ↦ hstart).bind
    fun output ↦ ?_
  exact obeys_pure fun _ _ hstart ↦ hstart.1

theorem dictionary_accounted (hlabel : v.label = .ok label) {schema : ObjectSchema}
    {additional : Node} (hkind : v.node.kind = .object schema)
    (hplain : schema.hasProperties = false) (hadditional : schema.additional = some additional)
    (scope : String) : Yields cx roots isFunction v.document
      (dictionary cx (map cx budget) v.document additional label (v.request scope)) := by
  have hdeclared := Visit.declared?_map hlabel hkind hplain hadditional
  refine (claim_accounted hv hdeclared stable_true scope label).bind fun stem ↦ ?_
  refine ((h _ stem (hv.step (.value hkind hplain hadditional))).keep stable_true).imp
    (fun _ _ ↦ trivial) (fun _ _ hend ↦ hend.1) |>.bind fun value ↦ ?_
  refine (obeys_merge htidy v.document (fun _ _ ↦ Output.all_empty) fun _ hstart ↦ hstart).bind
    fun output ↦ ?_
  exact obeys_pure fun _ _ hstart ↦ hstart.1

theorem addMember_accounted {schema : ObjectSchema} (hkind : v.node.kind = .object schema)
    (done rest : List (String × Node)) (entry : String × Node)
    (hmembers : schema.members = done ++ entry :: rest) (soFar : Gathered) (scope : String) :
    Obeys (functionRules cx.library roots isFunction)
      (Gathers cx roots isFunction v stem done soFar)
      (addMember (map cx budget) v.document stem (v.request scope) soFar entry)
      fun registry soFar ↦ Gathers cx roots isFunction v stem (done ++ [entry]) soFar registry := by
  have hmember : entry ∈ schema.members := by
    rw [hmembers]
    exact List.mem_append_right done (.head rest)
  have hvalue := (h _ stem (hv.step (.property hkind hmember))).attempt_settles
    (fun budget ↦ map cx budget v.document entry.2 ((v.request scope).property stem entry.1))
    (map_replays cx budget _ _ _ _ _ _)
  refine (hvalue.keep (stable_gathers done soFar)).bind fun mapped ↦ ?_
  cases mapped with
  | ok value =>
    refine (obeys_merge htidy v.document (fun _ hstart ↦ hstart.2.1.1)
      fun _ hstart ↦ hstart.1.1).bind fun output ↦ obeys_pure fun registry _ hstart ↦ ?_
    obtain ⟨houtput, ⟨-, hsettles⟩, hgathers⟩ := hstart
    exact hgathers.snoc ⟨_, hsettles (not_cyclic_ok value), rfl⟩ houtput
  | error failure =>
    refine obeys_ite_warn (fun hrecoverable registry _ hstart ↦ ?_) fun _ _ hstart ↦ hstart.1.1
    obtain ⟨⟨-, hsettles⟩, hgathers⟩ := hstart
    have hsnoc := hgathers.snoc ⟨_, hsettles (not_cyclic_of_isRecoverable hrecoverable), rfl⟩
      (hgathers.1.1.addDiagnostic (.ofFailure failure))
    rw [show members [Except.map _ (.error failure)] = [] from rfl, List.append_nil] at hsnoc
    exact hsnoc

theorem object_accounted (hlabel : v.label = .ok label) {schema : ObjectSchema}
    (hkind : v.node.kind = .object schema) (hproperties : schema.hasProperties = true)
    (scope : String) : Yields cx roots isFunction v.document
      (Wire.object cx (map cx budget) v.document schema label (v.request scope)) := by
  have hdeclared := Visit.declared?_object hlabel hkind hproperties
  refine (claim_accounted hv hdeclared stable_true scope label).bind fun stem ↦ ?_
  have hgather : Obeys (functionRules cx.library roots isFunction)
      (Gathers cx roots isFunction v stem [] ⟨{}, []⟩)
      (schema.members.foldlM (addMember (map cx budget) v.document stem (v.request scope)) ⟨{}, []⟩)
      fun registry soFar ↦ Gathers cx roots isFunction v stem schema.members soFar registry :=
    obeys_foldlM fun done entry rest hmembers soFar ↦
      addMember_accounted hv h htidy hkind done rest entry hmembers soFar scope
  refine (hgather.imp (fun registry hstart ↦ ?_) fun _ _ hend ↦ hend).bind fun gathered ↦ ?_
  · exact ⟨⟨Output.all_empty, hstart.1⟩, [], .nil, rfl⟩
  refine (obeys_within htidy v.document fun registry hstart ↦ ?_).bind fun output ↦ ?_
  · obtain ⟨⟨houtput, hstem⟩, results, hresults, hmembers⟩ := hstart
    rw [hmembers]
    exact Output.insert_within houtput (.inl (.intro hv rfl hdeclared hstem (.container hresults)))
  · exact obeys_pure fun _ _ hstart ↦ hstart.1

theorem objectLike_accounted (hlabel : v.label = .ok label) {schema : ObjectSchema}
    (hkind : v.node.kind = .object schema) (scope : String) :
    Yields cx roots isFunction v.document
      (objectLike cx (map cx budget) v.document schema label (v.request scope)) := by
  unfold objectLike
  split
  · exact object_accounted hv h htidy hlabel hkind ‹_› scope
  · split
    · exact dictionary_accounted hv h htidy hlabel hkind (Bool.eq_false_iff.2 ‹_›) ‹_› scope
    · split
      · exact obeys_fail fun _ _ ↦ allows_of_isCollision rfl
      · exact yields_named _

end

/-- Every schema that a mapper comes to has a wire type whose output is accounted for. -/
theorem map_accounted (htidy : Tidy cx.library roots) (budget : Nat) :
    MapYields cx roots isFunction budget := by
  induction budget with
  | zero => exact fun _ _ _ ↦ obeys_exhausted
  | succ budget ih =>
    intro v scope hv
    have hlabelled : ∀ {next : String → Mapping WireType},
        (∀ label, v.label = .ok label → Yields cx roots isFunction v.document (next label)) →
          Yields cx roots isFunction v.document
            (Mapping.ofExcept ((v.request scope).label v.node) >>= next) :=
      fun h ↦ obeys_ofExcept_bind
        (fun _ hfailure ↦ allows_of_isCollision (Request.label_fails hfailure).1) h
    change Yields cx roots isFunction v.document
      (step cx (mergeAllOf cx.library budget) (map cx budget) v.document v.node (v.request scope))
    unfold step
    split
    · exact reference_accounted hv ih ‹_› scope
    · refine hlabelled fun label hlabel ↦ ?_
      split
      case h_1 =>
        unfold constant
        split
        · exact yields_named _
        · exact obeys_fail fun _ _ ↦ allows_of_isCollision rfl
      case h_2 =>
        refine (claim_accounted hv (Visit.declared?_enumeration hlabel ‹_›) stable_true scope
          label).bind fun stem ↦ obeys_pure fun _ _ _ ↦ Output.all_empty
      case h_3 => exact array_accounted hv ih htidy hlabel ‹_› scope
      case h_4 members hkind =>
        refine (mergeAllOf_obeys budget _ _ members _).bind fun merged ↦ ?_
        intro session result session' hrun hholds hstart
        exact ih _ scope (hv.step (.merged hkind hlabel hstart.2)) hrun hholds trivial
      case h_5 => exact objectLike_accounted hv ih htidy hlabel ‹_› scope
      case h_6 => exact yields_named _
      all_goals exact obeys_fail fun _ _ ↦ allows_of_isCollision rfl

end Wire

end SchemaBindings
