import SchemaBindings.Proofs.Definitions
import SchemaBindings.Proofs.Naming
import SchemaBindings.Proofs.Tracked

/-!
# Pruning

A document that is generated without its unused definitions still declares the types that other
documents use, if the references into it are tracked: where a mapper that works for another
document goes over to this one, it comes to a definition that is kept, and the definition is mapped
in the run over its own document. Without tracking this fails: a reference that leads into a
definition keeps none, so that the type that it names may be declared nowhere.
-/

namespace SchemaBindings

open Mapping Relation

section

variable {cx : Context} {library : Library} {owner : Document} {v w : Visit} {d : Declared}
  {good : Registry → Output → Prop}

/-! ## Going over to another document -/

/-- What leads from one document to another one is a reference. -/
theorem Visit.Comes.target_of_document_ne {v' : Visit} (h : v.Comes library v')
    (hother : v.document ≠ v'.document) :
    ∃ reference target, v.node.kind = .reference reference ∧
      library.resolve v.document reference v.path = .ok target ∧ v' = .ofTarget target := by
  cases h with
  | target hkind htarget => exact ⟨_, _, hkind, htarget, rfl⟩
  | _ => exact absurd rfl hother

/-- What a type of the owner is a part of is in the owner all the way, or goes over to the owner
for the last time. -/
theorem exists_entry (hmade : ReflTransGen (Visit.MadeFrom library) v w)
    (hinside : w.document = owner) :
    (v.document = owner ∧ ReflTransGen (Visit.MadeWithin library) v w) ∨
      ∃ user entry, ReflTransGen (Visit.MadeFrom library) v user ∧ user.document ≠ owner ∧
        user.MadeFrom library entry ∧ entry.document = owner ∧
          ReflTransGen (Visit.MadeWithin library) entry w := by
  -- from the end, so that what comes after the entry is known to stay inside
  induction hmade using ReflTransGen.head_induction_on with
  | refl => exact .inl ⟨hinside, .refl⟩
  | @head v v' hstep _ ih =>
    obtain ⟨hdocument, hwithin⟩ | ⟨user, entry, hreaches, hentry⟩ := ih
    · by_cases hv : v.document = owner
      · exact .inl ⟨hv, hwithin.head ⟨hstep, hdocument.trans hv.symm⟩⟩
      · exact .inr ⟨v, v', .refl, hv, hstep, hdocument, hwithin⟩
    · exact .inr ⟨user, entry, hreaches.head hstep, hentry⟩

theorem Visited.of_made {roots : Visit → Prop} (h : Visited library roots v)
    (hmade : ReflTransGen (Visit.MadeFrom library) v w) : Visited library roots w := by
  induction hmade with
  | refl => exact h
  | tail _ hstep ih => exact ih.step hstep.1

theorem Visit.HasType.of_made (h : v.HasType cx)
    (hmade : ReflTransGen (Visit.MadeFrom cx.library) v w) : w.HasType cx := by
  induction hmade with
  | refl => exact h
  | tail _ hstep ih => exact ih.madeFrom hstep

/-- A definition as a run over its document comes to it. -/
def Visit.ofDefinition (document : Document) (name : String) : Visit :=
  ⟨document, .ofKind (.reference (document.definitionRef name)), name,
    document.schemaPath (document.definitionRef name)⟩

/-- What another document goes over to is referred to by a definition that is mapped. -/
theorem Visit.Tracked.exists_standalone {user entry : Visit}
    (huser : user.Tracked cx.library owner) (hother : user.document ≠ owner)
    (hmade : user.MadeFrom cx.library entry) (hinside : entry.document = owner)
    (htype : entry.HasType cx) (settings : Settings) :
    ∃ name ∈ Generate.standalone cx.library settings owner,
      (Visit.ofDefinition owner name).MadeWithin cx.library entry := by
  obtain ⟨reference, target, hkind, htarget, rfl⟩ :=
    hmade.1.target_of_document_ne (hinside ▸ hother)
  obtain ⟨name, hkept, hnode, hplace⟩ :=
    huser.tracked hother reference (Node.mem_references_of_kind hkind) _ target htarget hinside
  refine ⟨name, ?_, ?_⟩
  · have hunion : target.node.kind.isUnion = false := htype.isUnion
    have hnamed : name ∈ Table.keys (owner.definitions.filter fun entry ↦ !entry.2.kind.isUnion) :=
      List.mem_map.2 ⟨(name, target.node), List.mem_filter.2
        ⟨Table.mem_of_get?_eq_some hnode, by simp [hunion]⟩, rfl⟩
    unfold Generate.standalone
    split
    · exact List.mem_filter.2 ⟨hnamed, by simpa using hkept⟩
    · exact hnamed
  · -- the definition is the place that the reference leads to, whoever looks it up
    have hlocal : isLocal (owner.definitionRef name) := by
      rw [Library.fragment_of_place? hplace]
      exact isLocal_splitReference reference
    have hsame : cx.library.place? owner (owner.definitionRef name) =
        cx.library.place? user.document reference := by
      rw [Library.place?_of_isLocal hlocal, hplace]
    obtain ⟨found, hfound⟩ := Library.exists_resolve_of_place?_eq htarget hsame
      (owner.schemaPath (owner.definitionRef name))
    obtain ⟨howner, hfoundNode, htitle, hpath⟩ := Library.resolve_of_place?_eq hfound htarget hsame
    have hentry : Visit.ofTarget found = .ofTarget target := by
      unfold Visit.ofTarget
      rw [howner, hfoundNode, htitle, hpath]
    refine ⟨?_, hinside⟩
    rw [← hentry]
    exact Visit.madeFrom_target rfl hfound

/-! ## Types that are used -/

theorem Visit.Comes.eq_ofTarget {v' : Visit} (h : v.Comes library v') {reference : String}
    (hkind : v.node.kind = .reference reference) {place : String} {target : Target}
    (htarget : library.resolve v.document reference place = .ok target) :
    v' = .ofTarget target := by
  cases h with
  | target hkind' htarget' =>
    rw [hkind] at hkind'
    cases hkind'
    rw [Library.resolve_place htarget] at htarget'
    cases htarget'
    rfl
  | _ => simp_all

/-- A reference to a schema with a type does not fail for want of one, on neither side. -/
theorem Native.map_firm_of_reference {reference : String}
    (hkind : v.node.kind = .reference reference) {v' : Visit} (hcomes : v.Comes cx.library v')
    (h : v'.HasType cx) (budget : Nat) (scope : String) :
    Firm (map cx budget v.document v.node (v.request scope)) := by
  cases budget with
  | zero => exact obeys_exhausted
  | succ budget =>
    have htarget : ∀ target, cx.library.resolve v.document reference v.path = .ok target →
        (Visit.ofTarget target).HasType cx :=
      fun target htarget ↦ hcomes.eq_ofTarget hkind htarget ▸ h
    obtain ⟨document, ⟨title, description, kind⟩, name, path⟩ := v
    obtain rfl : kind = _ := hkind
    exact reference_firm fun target hfound ↦ map_firm budget (htarget target hfound) ""

theorem Wire.map_firm_of_reference {reference : String}
    (hkind : v.node.kind = .reference reference) {v' : Visit} (hcomes : v.Comes cx.library v')
    (h : v'.HasType cx) (budget : Nat) (scope : String) :
    Firm (map cx budget v.document v.node (v.request scope)) := by
  cases budget with
  | zero => exact obeys_exhausted
  | succ budget =>
    have htarget : ∀ target, cx.library.resolve v.document reference v.path = .ok target →
        (Visit.ofTarget target).HasType cx :=
      fun target htarget ↦ hcomes.eq_ofTarget hkind htarget ▸ h
    obtain ⟨document, ⟨title, description, kind⟩, name, path⟩ := v
    obtain rfl : kind = _ := hkind
    exact reference_firm fun target hfound ↦ map_firm budget (htarget target hfound) ""

/-- The code of both sides stands under one stem. -/
theorem Visit.Stands.code {title : String} {registry : Registry} {output : Output}
    (hnative : w.Stands (d.nativeCode title) registry output)
    (hwire : (∃ schema, d = .object schema) → w.Stands d.wireCode registry output) :
    w.Stands (d.code title) registry output := by
  obtain ⟨stem, hstem, hcode⟩ := hnative
  refine ⟨stem, hstem, fun place symbol hmem ↦ ?_⟩
  obtain hmem | hmem := List.mem_append.1 hmem
  · exact hcode place symbol hmem
  · cases d with
    | object schema =>
      obtain ⟨stem', hstem', hcode'⟩ := hwire ⟨schema, rfl⟩
      cases hstem'.symm.trans hstem
      exact hcode' place symbol hmem
    | _ => cases hmem

/-- A definition that is mapped and has a type brings in the types that it is made from. -/
theorem Generate.stands_of_definition {settings : Settings} {name : String}
    (hname : name ∈ standalone library settings owner) {entry : Visit}
    (hmade : (Visit.ofDefinition owner name).MadeWithin library entry)
    (htype : entry.HasType ⟨library, settings.runtime⟩)
    (hwithin : ReflTransGen (Visit.MadeWithin library) entry w) (hdeclared : w.declared? = some d)
    {budget : Nat} {output : Output} {session : Session}
    (hrun : documentOutput (.ofBudget ⟨library, settings.runtime⟩ budget) library settings owner
      {} = some (.ok output, session)) :
    w.Stands (d.code w.document.title) session.registry output := by
  let cx : Context := ⟨library, settings.runtime⟩
  have hwhole : ReflTransGen (Visit.MadeWithin cx.library) (Visit.ofDefinition owner name) w :=
    hwithin.head hmade
  have hwire : Lasting fun registry output ↦
      (∃ schema, d = .object schema) → w.Stands d.wireCode registry output :=
    (lasting_stands w d.wireCode).of_imp _
  -- on the wire side other types than objects have no code, and arrays claim no stem
  have hpresents : Wire.Presents (fun registry output ↦
      (∃ schema, d = .object schema) → w.Stands d.wireCode registry output)
      (Wire.map cx budget owner (Visit.ofDefinition owner name).node
        ((Visit.ofDefinition owner name).request "")) := by
    by_cases hobject : ∃ schema, d = .object schema
    · obtain ⟨schema, rfl⟩ := hobject
      exact (Wire.map_stands_of_made hwhole hdeclared budget "").imp (fun _ _ ↦ trivial)
        fun _ _ hend _ ↦ hend
    · exact (Wire.map_claims_any cx budget _ _ _).obeys.imp (fun _ _ ↦ trivial)
        fun _ _ _ h ↦ absurd h hobject
  have hvalue := Emission.establishes_mapValue (lasting_stands w (d.nativeCode w.document.title))
    hwire (Native.map_firm_of_reference rfl hmade.1.1 htype budget "")
    (Wire.map_firm_of_reference rfl hmade.1.1 htype budget "")
    (Native.map_stands_of_made hwhole hdeclared budget "") hpresents
  have hboth := (lasting_stands w (d.nativeCode w.document.title)).and hwire
  obtain ⟨-, -, hmeets⟩ := documentOutput_obeys hboth budget hname hvalue hrun trivial trivial
  exact hmeets.1.code hmeets.2

/-- What the type of a schema of another document is made from is mapped in the run over its own
document, if the references are tracked. -/
theorem Generate.stands_of_used {settings : Settings} {user : Document}
    (huris : library.HasUris) (howner : library.get? owner.uri = some owner)
    (huser : library.get? user.uri = some user) (hother : user ≠ owner) {content : Json}
    (hread : Document.read content = .ok user) (htracks : library.Tracks owner)
    (hv : Visited library (Root library settings user) v) (houtside : v.document ≠ owner)
    (htype : v.HasType ⟨library, settings.runtime⟩)
    (hmade : ReflTransGen (Visit.MadeFrom library) v w) (hdeclared : w.declared? = some d)
    (hinside : w.document = owner) {budget : Nat} {output : Output} {session : Session}
    (hrun : documentOutput (.ofBudget ⟨library, settings.runtime⟩ budget) library settings owner
      {} = some (.ok output, session)) :
    w.Stands (d.code owner.title) session.registry output := by
  obtain ⟨hv, -⟩ | ⟨last, entry, hreaches, hlast, hstep, hentry, hwithin⟩ :=
    exists_entry hmade hinside
  · exact absurd hv houtside
  have htracked : last.Tracked library owner := (hv.of_made hreaches).tracked huris htracks howner
    huser hother (Document.isLocal_definitionRef hread)
  have hentryType : entry.HasType ⟨library, settings.runtime⟩ :=
    (htype.of_made hreaches).madeFrom hstep
  obtain ⟨name, hname, hdefinition⟩ :=
    htracked.exists_standalone hlast hstep hentry hentryType settings
  rw [← hinside]
  exact stands_of_definition hname hdefinition hentryType hwithin hdeclared hrun

/-- If the references into a document are tracked, its output has the code of every type of it that
the type of a schema elsewhere is made from, also if its unused definitions are left out. What the
type of the schema is called, and what carries it, names only types that it is made from. -/
theorem used_types_are_declared {settings : Settings} {user : Document}
    (huris : library.HasUris) (howner : library.get? owner.uri = some owner)
    (huser : library.get? user.uri = some user) (hother : user ≠ owner) {content : Json}
    (hread : Document.read content = .ok user) (htracks : library.Tracks owner)
    (hv : Visited library (Generate.Root library settings user) v) (houtside : v.document ≠ owner)
    {scope : String} {before after : Session} {type : NativeType}
    (hmapped : Native.Ends ⟨library, settings.runtime⟩ v.document v.node (v.request scope) before
      (.ok type) after)
    {budget : Nat} {output : Output} {session : Session}
    (hrun : Generate.documentOutput (.ofBudget ⟨library, settings.runtime⟩ budget) library settings
      owner {} = some (.ok output, session)) :
    (∃ spelling : TypeSpelling, spelling.Describes after.registry type ∧
      spelling.NamesParts library v) ∧
    ∀ w d, ReflTransGen (Visit.MadeFrom library) v w → w.declared? = some d → w.document = owner →
      w.Stands (d.code owner.title) session.registry output := by
  have htype : v.HasType ⟨library, settings.runtime⟩ := ⟨scope, before, type, after, hmapped⟩
  constructor
  · obtain ⟨budget, hmapped⟩ := hmapped
    obtain ⟨spelling, hspelling, hdescribes⟩ := Native.map_spells budget hmapped
    exact ⟨spelling, hdescribes, Native.namesParts_of_spell? budget htype hspelling⟩
  · intro w d hmade hdeclared hinside
    exact Generate.stands_of_used huris howner huser hother hread htracks hv houtside htype hmade
      hdeclared hinside hrun

end

namespace SharedMode

/-- The library has a mode that the device uses, and another definition that nobody uses. -/
def owner : Document where
  uri := "Types"
  title := "Types"
  family := .schema
  definitionsRoot := "#/definitions"
  definitions := [("Mode", .ofKind (.enumeration ["on", "off"])),
    ("Unused", .ofKind (.enumeration ["none"]))]
  methods := []
  content := .object [("definitions", .object [
    ("Mode", .object [("type", .string "string"),
      ("enum", .array [.string "on", .string "off"])]),
    ("Unused", .object [("type", .string "string"), ("enum", .array [.string "none"])])])]

def userContent : Json := .object [("$id", .string "Device"), ("title", .string "Device"),
  ("methods", .array [.object [("name", .string "mode"),
    ("result", .object [("schema", .object [("$ref", .string "Types#/definitions/Mode")])])]])]

def method : Method :=
  ⟨"mode", none, [], some ⟨"mode", .ofKind (.reference "Types#/definitions/Mode")⟩, []⟩

def user : Document where
  uri := "Device"
  title := "Device"
  family := .api
  definitionsRoot := "#/components/schemas"
  definitions := []
  methods := [method]
  content := userContent

def place : MethodPlace := ⟨user, 0, method⟩

def library : Library := ⟨[user, owner]⟩

def settings : Settings := { pruneUnused := true }

def cx : Context := ⟨library, settings.runtime⟩

/-- The result of the method, and the enumeration that it refers to. -/
def result : Visit :=
  ⟨user, .ofKind (.reference "Types#/definitions/Mode"), "mode", s!"{place.path}/result/schema"⟩

def mode : Visit :=
  ⟨owner, .ofKind (.enumeration ["on", "off"]), "Mode", "Types#/definitions/Mode"⟩

theorem read_user : Document.read userContent = .ok user := by cbv

theorem mem_documents {document : Document} (h : document ∈ library.documents) :
    document = user ∨ document = owner := by
  simpa [library] using h

theorem hasUris_library : library.HasUris := by
  intro document hdocument
  obtain rfl | rfl := mem_documents hdocument <;> exact ⟨by decide, by decide⟩

theorem user_ne_owner : user ≠ owner := fun h ↦ absurd (congrArg Document.uri h) (by decide)

theorem resolve_mode (place : String) :
    library.resolve user "Types#/definitions/Mode" place =
      .ok ⟨owner, mode.node, "Mode", true, "Types#/definitions/Mode", mode.path⟩ := by
  cbv

theorem definition?_mode :
    Keep.definition? owner (user.uri = owner.uri) "Types#/definitions/Mode" =
      some ("Mode", mode.node) := by
  cbv

theorem references_user : user.references = ["Types#/definitions/Mode"] := by decide +kernel

theorem references_owner : owner.references = [] := by decide +kernel

def looked : List String :=
  ["#/definitions/Mode", "#/definitions/Unused", "Types#/definitions/Mode"]

theorem mem_looked {reference : String} (h : library.Refers reference) : reference ∈ looked := by
  cases h with
  | @definition document name hdocument h =>
    obtain rfl | rfl := mem_documents hdocument
    · cases h
    · have hnames : (Table.keys owner.definitions).all
          (fun name ↦ looked.contains (owner.definitionRef name)) := by decide +kernel
      simpa using List.all_eq_true.1 hnames name h
  | @federated document m ending hdocument hm hclass =>
    have hpulls : ∀ method ∈ document.methods, MethodClass.of method ≠ .polymorphicPull := by
      obtain rfl | rfl := mem_documents hdocument <;> decide +kernel
    exact absurd hclass (hpulls _ (List.mem_of_getElem? hm.2))
  | @written document reference hdocument h =>
    obtain rfl | rfl := mem_documents hdocument
    · rw [references_user] at h
      exact .tail _ (.tail _ h)
    · rw [references_owner] at h
      cases h
  | @qualified document reference hdocument h =>
    obtain rfl | rfl := mem_documents hdocument
    · rw [references_user] at h
      cases List.mem_singleton.1 h
      decide +kernel
    · rw [references_owner] at h
      cases h

/-- Both definitions are enumerations, which refer to nothing. -/
theorem no_references {reader : Document} (hreader : reader ∈ library.documents) :
    ∀ reference ∈ looked, ((library.resolve reader reference "").toOption.all
      fun target ↦ target.node.references.isEmpty) = true := by
  obtain rfl | rfl := mem_documents hreader <;> decide +kernel

theorem tracks : library.Tracks owner where
  declared {reader reference place target} hreader hrefers htarget := by
    have hempty := no_references hreader reference (mem_looked hrefers)
    rw [Library.resolve_place htarget] at hempty
    rw [List.isEmpty_iff.1 hempty]
    exact List.nil_subset _
  named {home reference place target} hhome hreference htarget _ := by
    obtain rfl | rfl := mem_documents hhome
    · rw [references_user] at hreference
      cases List.mem_singleton.1 hreference
      cases htarget.symm.trans (resolve_mode place)
      exact ⟨"Mode", definition?_mode⟩
    · rw [references_owner] at hreference
      cases hreference

def output? (run : Option (Except Failure Output × Session)) : Option Output :=
  match run with
  | some (.ok output, _) => some output
  | _ => none

theorem exists_run_of_output? {run : Option (Except Failure Output × Session)}
    (h : (output? run).isSome) : ∃ output session, run = some (.ok output, session) := by
  unfold output? at h
  split at h
  · exact ⟨_, _, rfl⟩
  · cases h

theorem names_result :
    InlineElement.names (Native.map cx 8 user result.node (result.request "Mode") {}) =
      some ("Types_Mode", "WPEFramework::Core::JSON::EnumType<Types_Mode>") := by
  decide +kernel

theorem isSome_output : (output? (Generate.documentOutput (.ofBudget cx 8) library settings
    owner {})).isSome := by
  decide +kernel

/-- The device names the mode, and the library declares it. -/
theorem mode_declared : ∃ type after output session,
    Native.Ends cx user result.node (result.request "Mode") {} (.ok type) after ∧
    type.name = "Types_Mode" ∧
    Generate.documentOutput (.ofBudget cx 8) library settings owner {} =
      some (.ok output, session) ∧
    mode.Stands ((Declared.enumeration "Mode" none ["on", "off"]).code "Types") session.registry
      output := by
  obtain ⟨type, after, hmapped⟩ := InlineElement.exists_run_of_names names_result
  obtain ⟨output, session, hrun⟩ := exists_run_of_output? isSome_output
  have hname : type.name = "Types_Mode" := by
    have hnames := names_result
    rw [hmapped] at hnames
    exact congrArg Prod.fst (Option.some.inj hnames)
  have hmade : result.MadeFrom library
      (.ofTarget ⟨owner, mode.node, "Mode", true, "Types#/definitions/Mode", mode.path⟩) :=
    Visit.madeFrom_target rfl (resolve_mode _)
  have hresult : place.Schemas result := @MethodPlace.Schemas.result place [] _ rfl rfl
  have hvisited : Visited library (Generate.Root library settings user) result :=
    .root (.method ⟨rfl, rfl⟩ hresult)
  have hused := used_types_are_declared hasUris_library rfl rfl user_ne_owner read_user tracks
    hvisited user_ne_owner ⟨8, hmapped⟩ hrun
  exact ⟨type, after, output, session, ⟨8, hmapped⟩, hname, hrun,
    hused.2 mode _ (.single hmade) rfl rfl⟩

end SharedMode

namespace PointedInto

/-- The device uses a property inside of a definition, which refers to another definition. -/
def userContent : Json := .object [("$id", .string "A"), ("title", .string "A"),
  ("methods", .array [.object [("name", .string "get"), ("params", .array []),
    ("result", .object [("name", .string "v"),
      ("schema", .object [("$ref", .string "T#/definitions/X/properties/p")])])]])]

def ownerContent : Json := .object [("$id", .string "T"), ("title", .string "T"),
  ("definitions", .object [
    ("X", .object [("type", .string "object"), ("properties", .object [
      ("p", .object [("$ref", .string "#/definitions/Y")])])]),
    ("Y", .object [("type", .string "string"), ("enum", .array [.string "a"])])])]

theorem isSome_read_user : (Document.read userContent).toOption.isSome := by cbv

theorem isSome_read_owner : (Document.read ownerContent).toOption.isSome := by cbv

def user : Document := (Document.read userContent).toOption.get isSome_read_user

def owner : Document := (Document.read ownerContent).toOption.get isSome_read_owner

def library : Library := ⟨[user, owner]⟩

/-- The native header of a document that is generated without its unused definitions. -/
def header? (document : Document) : Option String :=
  ((library.generateDocument { pruneUnused := true } document).bind (·.generated)).map
    (·.artifacts.nativeHeader.contents)

/-- Both documents are generated. One of them names an enumeration of the other one, which declares
nothing. -/
theorem enumeration_lost :
    header? user = some (String.join [
      "#ifndef _A_H\n", "#define _A_H\n\n", "#include \"Firebolt.h\"\n",
      "#include \"Common/T.h\"\n\n", "#ifdef __cplusplus\n", "extern \"C\" \x7b\n", "#endif\n\n",
      "// Methods\n", "/* get */\n", "uint32_t A_Get(T_Y* v);\n\n",
      "#ifdef __cplusplus\n", "\x7d\n", "#endif\n\n", "#endif // _A_H\n"]) ∧
    header? owner = some (String.join [
      "#ifndef _COMMON_T_H\n", "#define _COMMON_T_H\n\n", "#include \"Firebolt.h\"\n\n",
      "#ifdef __cplusplus\n", "extern \"C\" \x7b\n", "#endif\n\n",
      "#ifdef __cplusplus\n", "\x7d\n", "#endif\n\n", "#endif // _COMMON_T_H\n"]) :=
  ⟨by decide +kernel, by decide +kernel⟩

end PointedInto

end SchemaBindings
