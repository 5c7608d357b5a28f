import Mathlib.Data.List.ReduceOption
import SchemaBindings.Proofs.Accessors
import SchemaBindings.Proofs.Firm
import SchemaBindings.Proofs.Sites

/-!
# Setters of properties

A property of an object is read-only if it is written as a constant itself. The type of its value,
however, is that of the schema that its references and compositions end at, and there is one such
schema for every property that has a type. A property that leads to a constant without being one
therefore has a setter for a value that never changes. All other properties have the functions that
their schemas ask for.
-/

namespace SchemaBindings

open Code Mapping Relation

/-! ## Where references and compositions end -/

/-- The schema stands for another one, for its target or for what its members merge into. -/
def Kind.isIndirect : Kind → Bool
  | reference _ => true
  | allOf _ => true
  | _ => false

theorem Kind.isIndirect_of_isConstant {kind : Kind} (h : kind.isConstant = true) :
    kind.isIndirect = false := by
  cases kind <;> first | rfl | cases h

def Kind.isArray : Kind → Bool
  | array _ => true
  | _ => false

namespace Visit

variable {library : Library} {v w w' : Visit}

/-- The schema stands for the other one, as references do and compositions. -/
inductive Redirects (library : Library) : Visit → Visit → Prop
  | target {v : Visit} {reference : String} {target : Target}
      (hkind : v.node.kind = .reference reference)
      (htarget : library.resolve v.document reference v.path = .ok target) :
      Redirects library v (.ofTarget target)
  | merged {v w : Visit} (h : v.Merges library w) : Redirects library v w

/-- The other schema is what is left when all references and compositions are followed. -/
structure EndsAt (library : Library) (v w : Visit) : Prop where
  leads : ReflTransGen (Redirects library) v w
  direct : w.node.kind.isIndirect = false

theorem redirects_rightUnique (library : Library) : Relator.RightUnique (Redirects library) := by
  intro v w w' h h'
  cases h with
  | target hkind htarget =>
    cases h' with
    | target hkind' htarget' =>
      cases hkind.symm.trans hkind'
      cases htarget.symm.trans htarget'
      rfl
    | merged h' =>
      obtain ⟨hkind', -⟩ := h'
      cases hkind.symm.trans hkind'
  | merged h =>
    cases h' with
    | target hkind' htarget' =>
      obtain ⟨hkind, -⟩ := h
      cases hkind.symm.trans hkind'
    | merged h' => exact merges_rightUnique library h h'

theorem Redirects.isIndirect (h : v.Redirects library w) : v.node.kind.isIndirect = true := by
  obtain ⟨hkind, -⟩ | ⟨hkind, -⟩ := h <;> rw [hkind] <;> rfl

theorem endsAt_self (h : v.node.kind.isIndirect = false) : v.EndsAt library v := ⟨.refl, h⟩

theorem EndsAt.head (h : v.Redirects library w) (hends : w.EndsAt library w') :
    v.EndsAt library w' :=
  ⟨hends.leads.head h, hends.direct⟩

theorem EndsAt.unique (h : v.EndsAt library w) (h' : v.EndsAt library w') : w = w' := by
  have hlast : ∀ {last : Visit}, last.node.kind.isIndirect = false →
      ∀ next, ¬last.Redirects library next :=
    fun hdirect _ hstep ↦ Bool.eq_false_iff.1 hdirect hstep.isIndirect
  exact eq_of_leads (redirects_rightUnique library) h.leads h'.leads (hlast h.direct)
    (hlast h'.direct)

/-- A schema with a type ends at one that stands for itself. -/
theorem HasType.exists_endsAt {cx : Context} (h : v.HasType cx) : ∃ w, v.EndsAt cx.library w := by
  obtain ⟨scope, session, type, session', budget, hrun⟩ := h
  induction budget generalizing v scope session type session' with
  | zero => cases hrun
  | succ budget ih =>
    obtain ⟨document, ⟨title, description, kind⟩, name, path⟩ := v
    cases kind with
    | reference reference =>
      obtain ⟨target, mapped, after, htarget, hbody, -⟩ := Native.reference_describes hrun
      obtain ⟨w, hends⟩ := ih (v := .ofTarget target) "" _ _ _ hbody
      exact ⟨w, .head (.target rfl htarget) hends⟩
    | allOf members =>
      obtain ⟨label, between, hfound, hrest⟩ := bind_eq_ok.1 hrun
      obtain ⟨hlabel, rfl⟩ := ofExcept_eq_ok.1 hfound
      obtain ⟨merged, after, hmerge, hnext⟩ := bind_eq_ok.1 hrest
      -- what the members merge into does not depend on the references that are being followed
      have hstart : mergeAllOf cx.library budget document
          (.mk title description (.allOf members)) members path {} = some (.ok merged, {}) :=
        (mergeAllOf_static _ _ _ _ _ _).run_of_chain_subset hmerge (List.nil_subset _)
      obtain ⟨w, hends⟩ := ih (v := ⟨document, .mk (title.or (some label)) merged.description
        merged.kind, name, path⟩) scope _ _ _ hnext
      exact ⟨w, .head (.merged (.intro rfl hlabel hstart)) hends⟩
    | _ => exact ⟨_, endsAt_self rfl⟩

/-- A property of the schema, as its object comes to it. -/
def property (v : Visit) (entry : String × Node) : Visit :=
  ⟨v.document, entry.2, entry.1, Pointer.child (Pointer.child v.path "properties") entry.1⟩

end Visit

/-! ## Functions that set a property -/

namespace Code.AccessorGroup

/-- The group has a function that sets this property of the object. -/
def HasSetter (group : AccessorGroup) (object name : String) : Prop :=
  object ++ "_Set_" ++ Text.capitalize name ∈ group.names

/-- The group is as the property asks for that is written as the first kind and ends at the second
one: constants are read-only, and all else can be set but an array in place, which has no handle to
be set by. -/
def Suits (group : AccessorGroup) (object name : String) (written ending : Kind) : Prop :=
  (ending.isConstant → ¬group.HasSetter object name) ∧
    (¬ending.isConstant → ¬written.isArray → group.HasSetter object name)

end Code.AccessorGroup

namespace Access

variable {runtime : Runtime} {object container name : String} {value : ValueType}

theorem hasSetter_property {options : PropertyOptions} :
    (property runtime object container name value options).HasSetter object name ↔
      options.isReadOnly = false := by
  have hset : object ++ "_Set_" ++ Text.capitalize name =
      object ++ "_" ++ "Set" ++ "_" ++ Text.capitalize name := by
    simp only [String.append_assoc]
    rfl
  unfold AccessorGroup.HasSetter
  rw [names_property, hset, List.mem_map]
  simp only [String.append_left_inj, String.append_right_inj, exists_eq_right]
  obtain ⟨isReadOnly, isOptional⟩ := options
  cases isReadOnly <;> cases isOptional <;> simp [propertyVerbs]

theorem not_hasSetter_elements {handle : String} {place : Option (String × String)} :
    ¬(elements runtime (object ++ "_" ++ Text.capitalize name ++ "Array") handle container place
      value).HasSetter object name := by
  unfold AccessorGroup.HasSetter
  rw [names_elements]
  intro hmem
  obtain ⟨verb, hverb, heq⟩ := List.mem_map.1 hmem
  -- the verbs of elements are too long for what would be left of the name
  have hlength := congrArg (fun text : String ↦ text.toList.length) heq
  simp only [Aspect.verbs, List.mem_cons, List.not_mem_nil, or_false] at hverb
  obtain rfl | rfl | rfl | rfl := hverb <;> simp at hlength

end Access

namespace Native

variable {cx : Context} {document : Document} {parent : Parent} {schema : ObjectSchema}
  {request : Request} {session session' : Session} {entry : String × Node}

/-! ## What becomes of properties -/

/-- A property is mapped to a group of functions, or is left out for want of a type. -/
inductive Outcome (cx : Context) (document : Document) (parent : Parent) (schema : ObjectSchema)
    (request : Request) (entry : String × Node) : Option AccessorGroup → Prop
  | mapped {budget : Nat} {session session' : Session} {value : NativeType} {group : AccessorGroup}
      (h : property cx (map cx budget) document parent (schema.isOptional entry.1) entry.1 entry.2
        (request.property parent.stem entry.1) session = some (.ok (value, group), session')) :
      Outcome cx document parent schema request entry (some group)
  | omitted {budget : Nat} {session session' : Session} {failure : Failure}
      (h : property cx (map cx budget) document parent (schema.isOptional entry.1) entry.1 entry.2
        (request.property parent.stem entry.1) session = some (.error failure, session'))
      (hrecoverable : failure.isRecoverable = true) :
      Outcome cx document parent schema request entry none

theorem addProperty_outcome {budget : Nat} {soFar gathered : Gathered}
    (h : addProperty cx (map cx budget) document parent schema request soFar entry session =
      some (.ok gathered, session')) :
    ∃ outcome, Outcome cx document parent schema request entry outcome ∧
      gathered.groups = soFar.groups ++ outcome.toList := by
  obtain ⟨value, group, output, between, hrun, -, rfl⟩ | ⟨failure, between, hrun, hfailure, rfl⟩ :=
    addProperty_cases h
  · exact ⟨some group, .mapped hrun, rfl⟩
  · exact ⟨none, .omitted hrun hfailure, (List.append_nil _).symm⟩

theorem addProperties_outcomes {budget : Nat} {entries : List (String × Node)}
    {soFar gathered : Gathered}
    (h : entries.foldlM (addProperty cx (map cx budget) document parent schema request) soFar
      session = some (.ok gathered, session')) :
    ∃ outcomes, List.Forall₂ (Outcome cx document parent schema request) entries outcomes ∧
      gathered.groups = soFar.groups ++ outcomes.reduceOption := by
  induction entries generalizing soFar session with
  | nil =>
    cases h
    exact ⟨[], .nil, (List.append_nil _).symm⟩
  | cons entry rest ih =>
    rw [List.foldlM_cons] at h
    obtain ⟨next, _, hnext, hrest⟩ := bind_eq_ok.1 h
    obtain ⟨outcome, hfirst, hgroups⟩ := addProperty_outcome hnext
    obtain ⟨outcomes, hothers, hall⟩ := ih hrest
    refine ⟨outcome :: outcomes, .cons hfirst hothers, ?_⟩
    rw [hall, hgroups]
    cases outcome <;> simp

/-- The declaration of a handle is the text of its groups. -/
theorem text_of_addHandle {output result : Output} {handle path : String}
    {groups : List AccessorGroup} (h : addHandle output handle groups path = .ok result) :
    (result.find? .declarations handle).map (·.text) =
      some (Fragment.ofPieces [.declared groups]).text := by
  obtain ⟨-, -, hfind⟩ := addHandle_eq_ok h
  obtain ⟨between, hdeclared, -⟩ := addHandle_inserts h
  obtain ⟨hfailure, -⟩ := Output.insert_eq_set hdeclared
  rw [hfind .declared, if_pos rfl]
  cases hfound : output.find? .declarations handle with
  | none => rfl
  | some existing => exact congrArg some (Fragments.text_eq_of_insert hfailure hfound)

theorem object_outcomes {budget : Nat} {label : String} {type : NativeType}
    (h : object cx (map cx budget) document schema label request session =
      some (.ok type, session')) :
    ∃ stem outcomes, type.name = Names.objectHandle document.title stem ∧
      (type.output.find? .declarations type.name).map (·.text) =
        some (Fragment.ofPieces [.declared
          (Access.lifecycle cx.runtime type.name type.wire :: outcomes.reduceOption)]).text ∧
      List.Forall₂ (Outcome cx document (.ofStem cx.runtime document.title stem) schema request)
        schema.members outcomes := by
  obtain ⟨stem, _, -, h⟩ := bind_eq_ok.1 h
  obtain ⟨gathered, _, hgathered, h⟩ := bind_eq_ok.1 h
  obtain ⟨result, _, hadd, h⟩ := bind_eq_ok.1 h
  cases h
  obtain ⟨outcomes, houtcomes, hgroups⟩ := addProperties_outcomes hgathered
  have htext := text_of_addHandle (ofExcept_eq_ok.1 hadd).1
  rw [hgroups] at htext
  exact ⟨stem, outcomes, rfl, htext, houtcomes⟩

/-- A schema with properties is mapped as an object with them. -/
theorem Ends.exists_object {node : Node} {type : NativeType}
    (hkind : node.kind = .object schema) (hproperties : schema.hasProperties = true)
    (h : Ends cx document node request session (.ok type) session') :
    ∃ budget label, object cx (map cx budget) document schema label request session =
      some (.ok type, session') := by
  obtain ⟨budget, hrun⟩ := h
  obtain ⟨title, description, kind⟩ := node
  obtain rfl : kind = _ := hkind
  cases budget with
  | zero => cases hrun
  | succ budget =>
    obtain ⟨label, between, hlabel, hobject⟩ := bind_eq_ok.1 hrun
    obtain ⟨-, rfl⟩ := ofExcept_eq_ok.1 hlabel
    change objectLike cx (map cx budget) document schema label request _ = _ at hobject
    unfold objectLike at hobject
    rw [if_pos hproperties] at hobject
    exact ⟨budget, label, hobject⟩

/-- A property that is mapped has a setter if it is written neither as a constant nor as an array,
and it ends at a schema that stands for itself. -/
theorem Outcome.hasSetter_iff {v : Visit} {scope : String} {group : AccessorGroup}
    (h : Outcome cx v.document parent schema (v.request scope) entry (some group)) :
    (group.HasSetter parent.base entry.1 ↔
      entry.2.kind.isConstant = false ∧ entry.2.kind.isArray = false) ∧
    ∃ w, (v.property entry).EndsAt cx.library w := by
  obtain ⟨name, title, description, kind⟩ := entry
  cases h with
  | @mapped budget session session' value _ h =>
    have hwhole : ∀ options : Access.PropertyOptions,
        (map cx budget v.document (.mk title description kind)
            ((v.request scope).property parent.stem name) >>= fun value ↦
          pure (value, Access.property cx.runtime parent.base parent.container name
            value.valueType options)) session = some (.ok (value, group), session') →
        (group.HasSetter parent.base name ↔ options.isReadOnly = false) ∧
          (v.property (name, .mk title description kind)).HasType cx := by
      intro options h
      obtain ⟨type, _, htype, h⟩ := bind_eq_ok.1 h
      cases h
      exact ⟨Access.hasSetter_property, parent.stem, _, _, _, budget, htype⟩
    cases kind with
    | array items =>
      obtain ⟨item, _, -, h⟩ := bind_eq_ok.1 h
      obtain ⟨element, _, -, h⟩ := bind_eq_ok.1 h
      cases h
      exact ⟨iff_of_false Access.not_hasSetter_elements nofun, _, Visit.endsAt_self rfl⟩
    | _ =>
      obtain ⟨hsetter, htype⟩ := hwhole _ h
      refine ⟨hsetter.trans ?_, htype.exists_endsAt⟩
      simp [Kind.isConstant, Kind.isArray]

/-- The functions of a property suit it unless it leads to a constant that it is not written as. -/
theorem Outcome.suits_iff {v w : Visit} {scope : String} {group : AccessorGroup}
    (h : Outcome cx v.document parent schema (v.request scope) entry (some group))
    (hends : (v.property entry).EndsAt cx.library w) :
    group.Suits parent.base entry.1 entry.2.kind w.node.kind ↔
      (w.node.kind.isConstant → entry.2.kind.isConstant) := by
  obtain ⟨hsetter, -⟩ := h.hasSetter_iff
  have hself : entry.2.kind.isIndirect = false → w.node.kind = entry.2.kind :=
    fun hdirect ↦ congrArg (·.node.kind) (hends.unique (Visit.endsAt_self hdirect))
  constructor
  · rintro ⟨hreadOnly, -⟩ hconstant
    by_contra hwritten
    refine hreadOnly hconstant (hsetter.2 ⟨Bool.eq_false_iff.2 hwritten, ?_⟩)
    -- an array in place leads nowhere else, and is no constant
    cases hkind : entry.2.kind with
    | array items =>
      rw [hself (by rw [hkind]; rfl), hkind] at hconstant
      cases hconstant
    | _ => rfl
  · intro hwritten
    refine ⟨fun hconstant hset ↦ ?_, fun hvariable harray ↦ hsetter.2 ⟨?_, ?_⟩⟩
    · exact Bool.eq_false_iff.1 (hsetter.1 hset).1 (hwritten hconstant)
    · cases hkind : entry.2.kind with
      | constant value minimum =>
        rw [hself (by rw [hkind]; rfl), hkind] at hvariable
        exact absurd rfl hvariable
      | _ => rfl
    · exact Bool.eq_false_iff.2 harray

end Native

/-- The handle of an object is declared with the functions of its properties in their order, but for
those that are left out. A property has a setter if it is written neither as a constant nor as an
array in place. It ends at one schema, and its functions suit it exactly if that schema is no
constant or the property is written as one itself. -/
theorem setters_suit_iff_constants_are_written {cx : Context} {v : Visit} {scope : String}
    {schema : ObjectSchema} {session session' : Session} {type : NativeType}
    (hkind : v.node.kind = .object schema) (hproperties : schema.hasProperties = true)
    (h : Native.Ends cx v.document v.node (v.request scope) session (.ok type) session') :
    ∃ stem outcomes, type.name = Names.objectHandle v.document.title stem ∧
      (type.output.find? .declarations type.name).map (·.text) =
        some (Fragment.ofPieces [.declared
          (Access.lifecycle cx.runtime type.name type.wire :: outcomes.reduceOption)]).text ∧
      List.Forall₂ (fun entry outcome ↦
        Native.Outcome cx v.document (.ofStem cx.runtime v.document.title stem) schema
          (v.request scope) entry outcome ∧
        ∀ group ∈ outcome,
          (group.HasSetter (Names.qualified v.document.title stem) entry.1 ↔
            entry.2.kind.isConstant = false ∧ entry.2.kind.isArray = false) ∧
          ∃ w, (v.property entry).EndsAt cx.library w ∧
            (∀ w', (v.property entry).EndsAt cx.library w' → w' = w) ∧
            (group.Suits (Names.qualified v.document.title stem) entry.1 entry.2.kind
              w.node.kind ↔ (w.node.kind.isConstant → entry.2.kind.isConstant)))
        schema.members outcomes := by
  obtain ⟨budget, label, hobject⟩ := h.exists_object hkind hproperties
  obtain ⟨stem, outcomes, hname, htext, houtcomes⟩ := Native.object_outcomes hobject
  refine ⟨stem, outcomes, hname, htext, houtcomes.imp fun entry outcome houtcome ↦ ?_⟩
  refine ⟨houtcome, ?_⟩
  rintro group rfl
  obtain ⟨hsetter, w, hends⟩ := houtcome.hasSetter_iff
  exact ⟨hsetter, w, hends, fun w' hends' ↦ hends'.unique hends, houtcome.suits_iff hends⟩

namespace Release

/-- A document with a definition that allows one value only. -/
def content : Json := .object [("$id", .string "Release"), ("title", .string "Release"),
  ("definitions", .object [("Version", .object [("const", .string "1.0")])])]

theorem isSome_read : (Document.read content).toOption.isSome := by decide +kernel

def home : Document := (Document.read content).toOption.get isSome_read

def cx : Context := ⟨⟨[home]⟩, {}⟩

def version : Node := .ofKind (.reference "#/definitions/Version")

def object (members : List (String × Node)) : ObjectSchema := .mk (some members) none none false

def visit (members : List (String × Node)) : Visit :=
  ⟨home, .ofKind (.object (object members)), "info", "Release#/info"⟩

def native? (members : List (String × Node)) : Option (Except Failure NativeType × Session) :=
  Native.map cx 5 home (visit members).node ((visit members).request "") {}

/-- Names of all functions that the handle of an object is declared with. -/
def declared? (type : NativeType) : Option (List String) :=
  (type.output.find? .declarations type.name).map (·.groups.flatMap AccessorGroup.names)

def lifeNames : List String := ["Release_InfoHandle_Create", "Release_InfoHandle_Addref",
  "Release_InfoHandle_Release", "Release_InfoHandle_IsValid"]

/-- A constant, a text and an array in place. -/
def plain : List (String × Node) := [
  ("format", .ofKind (.constant (.string "short") none)),
  ("name", .ofKind (.primitive .string none)),
  ("years", .ofKind (.array (.single (.ofKind (.primitive .integer none)))))]

theorem run_plain : (native? plain).any (fun run ↦ run.1.toOption.any fun type ↦
    declared? type == some (lifeNames ++ ["Release_Info_Get_Format", "Release_Info_Get_Name",
      "Release_Info_Set_Name", "Release_Info_YearsArray_Size", "Release_Info_YearsArray_Get",
      "Release_Info_YearsArray_Add", "Release_Info_YearsArray_Clear"])) = true := by
  decide +kernel

/-- Of a constant, a text and an array in place, only the text has a setter. -/
theorem only_text_is_set : ∃ type stem outcomes,
    declared? type = some (lifeNames ++ ["Release_Info_Get_Format", "Release_Info_Get_Name",
      "Release_Info_Set_Name", "Release_Info_YearsArray_Size", "Release_Info_YearsArray_Get",
      "Release_Info_YearsArray_Add", "Release_Info_YearsArray_Clear"]) ∧
    type.name = Names.objectHandle "Release" stem ∧
    List.Forall₂ (fun entry (outcome : Option AccessorGroup) ↦ ∀ group ∈ outcome,
      (group.HasSetter (Names.qualified "Release" stem) entry.1 ↔
        entry.2.kind.isConstant = false ∧ entry.2.kind.isArray = false) ∧
      ∃ w, ((visit plain).property entry).EndsAt cx.library w ∧
        (group.Suits (Names.qualified "Release" stem) entry.1 entry.2.kind w.node.kind ↔
          (w.node.kind.isConstant → entry.2.kind.isConstant))) plain outcomes := by
  obtain ⟨type, session, hrun, hdeclared⟩ := exists_ok_of_any run_plain
  obtain ⟨stem, outcomes, hname, -, houtcomes⟩ :=
    setters_suit_iff_constants_are_written (v := visit plain) rfl rfl ⟨5, hrun⟩
  have htitle : home.title = "Release" := by decide +kernel
  have hhome : (visit plain).document.title = "Release" := htitle
  rw [hhome] at hname houtcomes
  refine ⟨type, stem, outcomes, beq_iff_eq.1 hdeclared, hname, houtcomes.imp ?_⟩
  rintro entry outcome ⟨-, hgroups⟩ group hgroup
  obtain ⟨hsetter, w, hends, -, hsuits⟩ := hgroups group hgroup
  exact ⟨hsetter, w, hends, hsuits⟩

/-! ## Constants behind references -/

/-- A reference to a constant, and a composition of it alone. -/
def referring : List (String × Node) :=
  [("version", version), ("oldest", .ofKind (.allOf [version]))]

theorem version_endsAt : ∃ w,
    ((visit referring).property ("version", version)).EndsAt cx.library w ∧
      w.node.kind.isConstant = true := by
  have hresolves : (cx.library.resolve home "#/definitions/Version"
      ((visit referring).property ("version", version)).path).toOption.any
        (·.node.kind.isConstant) = true := by
    decide +kernel
  obtain ⟨target, htarget, hconstant⟩ := Failure.any_toOption.1 hresolves
  exact ⟨.ofTarget target, .head (.target rfl htarget)
    (Visit.endsAt_self (Kind.isIndirect_of_isConstant hconstant)), hconstant⟩

theorem oldest_endsAt : ∃ w,
    ((visit referring).property ("oldest", .ofKind (.allOf [version]))).EndsAt cx.library w ∧
      w.node.kind.isConstant = true := by
  have hmerges : (mergeAllOf cx.library 3 home (.ofKind (.allOf [version])) [version]
      ((visit referring).property ("oldest", .ofKind (.allOf [version]))).path {}).any
        (fun run ↦ run.1.toOption.any (·.kind.isConstant)) = true := by
    decide +kernel
  obtain ⟨merged, session, hmerge, hconstant⟩ := exists_ok_of_any hmerges
  have hstart := (mergeAllOf_static _ _ _ _ _ _).run_of_chain_subset hmerge (List.Subset.refl _)
  exact ⟨_, .head (.merged (.intro rfl rfl hstart))
    (Visit.endsAt_self (Kind.isIndirect_of_isConstant hconstant)), hconstant⟩

theorem run_referring : (native? referring).any (fun run ↦ run.1.toOption.any fun type ↦
    declared? type == some (lifeNames ++ ["Release_Info_Get_Version", "Release_Info_Set_Version",
      "Release_Info_Get_Oldest", "Release_Info_Set_Oldest"])) = true := by
  decide +kernel

/-- Properties that lead to a constant by a reference or by a composition can be set. -/
theorem constants_are_set : ∃ type session w w',
    Native.Ends cx home (visit referring).node ((visit referring).request "") {} (.ok type)
      session ∧
    ((visit referring).property ("version", version)).EndsAt cx.library w ∧
    w.node.kind.isConstant = true ∧
    ((visit referring).property ("oldest", .ofKind (.allOf [version]))).EndsAt cx.library w' ∧
    w'.node.kind.isConstant = true ∧
    declared? type = some (lifeNames ++ ["Release_Info_Get_Version", "Release_Info_Set_Version",
      "Release_Info_Get_Oldest", "Release_Info_Set_Oldest"]) := by
  obtain ⟨type, session, hrun, hdeclared⟩ := exists_ok_of_any run_referring
  obtain ⟨w, hends, hconstant⟩ := version_endsAt
  obtain ⟨w', hends', hconstant'⟩ := oldest_endsAt
  exact ⟨type, session, w, w', ⟨5, hrun⟩, hends, hconstant, hends', hconstant',
    beq_iff_eq.1 hdeclared⟩

end Release

end SchemaBindings
