import SchemaBindings.Proofs.Assembly
import SchemaBindings.Proofs.Paths
import SchemaBindings.Proofs.Pruning
import SchemaBindings.Proofs.Signatures

/-!
# Includes

Which files of a run the generated files include. The titles that an output refers to are titles of
documents of the library, and code that names a container class of another document includes the
header of its containers. Whoever includes a header makes its name from the title alone, as that of
a schema document. The header of an API has another name, and a document without containers has no
header of containers, whatever the code that seems to name one.
-/

namespace SchemaBindings

open Code Mapping Relation Text

/-! ## Titles of other documents -/

namespace Output

/-- All titles that the output refers to are titles of documents in the library. -/
def RefersWithin (library : Library) (output : Output) : Prop :=
  ∀ title ∈ output.externals, ∃ document ∈ library.documents, document.title = title

variable {library : Library} {output other result : Output}

theorem RefersWithin.of_externals_eq (h : output.RefersWithin library)
    (heq : other.externals = output.externals) : other.RefersWithin library := by
  intro title htitle
  rw [heq] at htitle
  exact h title htitle

theorem merges_refersWithin (library : Library) : Merges (RefersWithin library) where
  empty := fun _ htitle ↦ nomatch htitle
  congr h _ heq := h.of_externals_eq heq
  merge h hother hmerge := by
    intro title htitle
    rw [(merge_eq_ok hmerge).2.1, mem_addAllNew] at htitle
    exact htitle.elim (h title) (hother title)

theorem RefersWithin.insert {place : Section} {symbol path : String} {pieces : List Piece}
    (h : output.RefersWithin library)
    (hinsert : (output.insert place symbol pieces path).toExcept = .ok result) :
    result.RefersWithin library :=
  h.of_externals_eq (insert_eq_ok hinsert).2.1

theorem keepsTypes_refersWithin (cx : Context) : KeepsTypes cx (RefersWithin cx.library) where
  enumeration _ := fun _ htitle ↦ nomatch htitle
  handle h hadd := by
    obtain ⟨between, hdeclared, hdefined⟩ := Native.addHandle_inserts hadd
    exact (h.insert hdeclared).insert hdefined
  container h hinsert := h.insert hinsert
  external {output owner} howner h := by
    intro title htitle
    obtain htitle | rfl := mem_addNew.1 htitle
    · exact h title htitle
    · exact ⟨owner, howner, rfl⟩

end Output

/-- The documents that a generated document refers to are other documents of the library. -/
theorem Generate.documentOutput_refersWithin {library : Library} {settings : Settings}
    {document : Document} (budget : Nat) :
    Obeys freeRules (fun _ ↦ True)
      (documentOutput (.ofBudget ⟨library, settings.runtime⟩ budget) library settings document)
      fun _ output ↦ output.RefersWithin library ∧ document.title ∉ output.externals := by
  have hmerges := Output.merges_refersWithin library
  have hlasts : Emission.Lasts freeRules (fun _ output ↦ output.RefersWithin library)
      (fun _ ↦ True) (.ofBudget ⟨library, settings.runtime⟩ budget) fun _ _ ↦ True :=
    Emission.lasts_of_merges hmerges (Output.keepsTypes_refersWithin _) budget fun _ _ _ _ ↦
      Emission.keeps_insert fun _ _ hinsert h ↦ h.insert hinsert
  refine (documentOutput_of_merges hmerges hlasts (fun _ _ _ ↦ trivial) fun m _ ↦
    Emission.keeps_functions hlasts fun _ _ ↦ trivial).imp (fun _ h ↦ h) ?_
  rintro _ _ ⟨whole, hwhole, rfl⟩
  exact ⟨fun title htitle ↦ hwhole title (List.mem_filter.1 htitle).1, by simp⟩

/-! ## Lines of files -/

namespace Files

variable {runtime : Runtime} {headerText : Option String} {document : Document} {output : Output}

theorem holds_nativeHeader {title : String} (h : title ∈ output.externals) :
    Text.Holds (nativeHeader runtime headerText document output)
      (includeLine (nativeHeaderName title .schema)) := by
  have hline : Text.Holds (String.join (output.externals.map fun title ↦
      includeLine (nativeHeaderName title .schema)))
      (includeLine (nativeHeaderName title .schema)) :=
    Text.holds_join (List.mem_map.2 ⟨title, h, rfl⟩)
  unfold nativeHeader
  iterate 10 refine Text.Holds.append_left ?_ _
  exact hline.append_right _

theorem holds_wireHeader {includes : List String} {name : String} (h : name ∈ includes) :
    Text.Holds (wireHeader runtime headerText document output includes) (includeLine name) := by
  have hline : Text.Holds (String.join (includes.map includeLine)) (includeLine name) :=
    Text.holds_join (List.mem_map_of_mem h)
  unfold wireHeader
  iterate 7 refine Text.Holds.append_left ?_ _
  exact hline.append_right _

theorem holds_implementation {includes : List String} {name : String} (h : name ∈ includes) :
    Text.Holds (implementation runtime headerText document output includes)
      (includeLine name) := by
  have hline : Text.Holds (String.join (includes.map includeLine)) (includeLine name) :=
    Text.holds_join (List.mem_map_of_mem h)
  unfold implementation
  iterate 7 refine Text.Holds.append_left ?_ _
  exact hline.append_right _

/-- The sections whose code may name container classes of other documents. -/
def wireSections : List Section := [.containers, .definitions, .implementations]

/-- Whether the text names a container class of the document with this title. -/
def NamesContainer (runtime : Runtime) (title text : String) : Prop :=
  ∃ stem, Text.Holds text (runtime.wireContainer title stem)

theorem namesContainer_iff {title text : String} :
    NamesContainer runtime title text ↔
      occurs (runtime.sdkNamespace ++ "::" ++ capitalize title ++ "::JsonData_") text = true := by
  have hcontainer : ∀ stem, runtime.wireContainer title stem =
      runtime.sdkNamespace ++ "::" ++ capitalize title ++ "::JsonData_" ++ stem := by
    intro stem
    rw [Runtime.wireContainer, Names.containerClass,
      show "::JsonData_" = "::" ++ "JsonData_" from rfl]
    simp only [String.append_assoc]
  rw [occurs_iff]
  constructor
  · rintro ⟨stem, hstem⟩
    rw [hcontainer] at hstem
    exact hstem.trans ⟨"", stem, by rw [String.empty_append]⟩
  · intro h
    exact ⟨"", by rwa [hcontainer, String.append_empty]⟩

/-- The header of the containers of another document is included if a class of it is named. -/
theorem mem_wireIncludes_iff {title : String} (htitle : title ∈ output.externals)
    (hdistinct : ∀ other ∈ output.externals, capitalize other = capitalize title → other = title) :
    wireHeaderName title ∈ wireIncludes runtime output ↔
      ∃ place ∈ wireSections, ∃ text ∈ (output.get place).texts,
        NamesContainer runtime title text := by
  have huses : (∃ place ∈ wireSections, ∃ text ∈ (output.get place).texts,
      NamesContainer runtime title text) ↔ usesContainersOf runtime output title = true := by
    simp only [namesContainer_iff, usesContainersOf, wireSections, List.any_eq_true,
      List.mem_cons, List.not_mem_nil, or_false, exists_eq_or_imp, exists_eq_left]
    rfl
  rw [huses]
  unfold wireIncludes
  rw [List.mem_map]
  constructor
  · rintro ⟨other, hother, hname⟩
    obtain ⟨hmem, hused⟩ := List.mem_filter.1 hother
    rwa [hdistinct other hmem (wireHeaderName_eq_iff.1 hname)] at hused
  · intro hused
    exact ⟨title, List.mem_filter.2 ⟨htitle, hused⟩, rfl⟩

/-- How the files of a document include those of the owner of types that it refers to. -/
structure Includes (runtime : Runtime) (output : Output) (files : Artifacts) (owner : Document)
    (ownerFiles : Artifacts) : Prop where
  native_line : Text.Holds files.nativeHeader.contents
    (includeLine (nativeHeaderName owner.title .schema))
  /-- The header that is included is that of a schema document. -/
  native_path : join "include" (nativeHeaderName owner.title .schema) =
    ownerFiles.nativeHeader.path ↔ owner.family = .schema
  wire_named : wireHeaderName owner.title ∈ wireIncludes runtime output ↔
    ∃ place ∈ wireSections, ∃ text ∈ (output.get place).texts,
      NamesContainer runtime owner.title text
  wire_lines : wireHeaderName owner.title ∈ wireIncludes runtime output →
    Text.Holds files.implementation.contents (includeLine (wireHeaderName owner.title)) ∧
      ∀ header ∈ files.wireHeader,
        Text.Holds header.contents (includeLine (wireHeaderName owner.title))
  wire_path : ∀ header ∈ ownerFiles.wireHeader,
    join "src" (wireHeaderName owner.title) = header.path

theorem assemble_includes {title : String} (htitle : title ∈ output.externals)
    (hdistinct : ∀ other ∈ output.externals, capitalize other = capitalize title → other = title)
    {owner : Document} (howner : owner.title = title) (ownerOutput : Output) :
    Includes runtime output (assemble runtime headerText document output) owner
      (assemble runtime headerText owner ownerOutput) := by
  subst howner
  refine ⟨holds_nativeHeader htitle, ?_, mem_wireIncludes_iff htitle hdistinct, fun hincluded ↦
    ⟨holds_implementation hincluded, ?_⟩, ?_⟩
  · rw [assemble, join_include_injective.eq_iff]
    cases owner.family <;> simp [nativeHeaderName]
  · intro header hheader
    dsimp only [assemble] at hheader
    split at hheader
    · cases hheader
    · cases hheader
      exact holds_wireHeader hincluded
  · intro header hheader
    dsimp only [assemble] at hheader
    split at hheader
    · cases hheader
    · cases hheader
      rfl

theorem isSome_wireHeader {symbol : String}
    (h : (output.find? .containers symbol).isSome) :
    (assemble runtime headerText document output).wireHeader.isSome := by
  obtain ⟨code, hcode⟩ := Option.isSome_iff_exists.1 h
  have hmem : (symbol, code) ∈ output.containers.entries := Table.mem_of_get?_eq_some hcode
  have hnonempty : output.containers.isEmpty = false :=
    List.isEmpty_eq_false_iff.2 (List.ne_nil_of_mem hmem)
  rw [assemble, hnonempty]
  rfl

end Files

/-! ## Documents of a run -/

namespace Library

variable {library : Library} {settings : Settings}

/-- The titles of a library tell its documents apart also when they are capitalised. -/
theorem eq_of_capitalize_eq
    (hdistinct : (library.documents.map fun document ↦ capitalize document.title).Nodup)
    {first second : Document} (hfirst : first ∈ library.documents)
    (hsecond : second ∈ library.documents)
    (h : capitalize first.title = capitalize second.title) : first = second :=
  List.inj_on_of_nodup_map hdistinct hfirst hsecond h

/-- If every document of a library is generated and no two have the same capitalised title, then
whatever title a generated document refers to is that of one other document. The header that is
included for it is the owner's exactly if the owner is a schema document. The header of containers
is included exactly if code names a container class of the owner, by the path of the owner's header
of containers, if it has one. It has one if a type that is made from an object of the owner is used
and the references into the owner are tracked. -/
theorem includes_lead_to_owners
    (hall : ∀ document ∈ library.documents, ∃ files,
      (document, files) ∈ library.generated (fun _ ↦ true) settings)
    (hdistinct : (library.documents.map fun document ↦ capitalize document.title).Nodup)
    {user : Document} {files : Artifacts}
    (hgenerated : (user, files) ∈ library.generated (fun _ ↦ true) settings) :
    ∃ output session,
      Generate.documentOutput (.ofBudget ⟨library, settings.runtime⟩ Generate.budget) library
        settings user {} = some (.ok output, session) ∧
      files = Files.assemble settings.runtime settings.headerText user output ∧
      ∀ title ∈ output.externals, ∃ owner ownerFiles,
        (owner, ownerFiles) ∈ library.generated (fun _ ↦ true) settings ∧
        owner.title = title ∧ owner ≠ user ∧
        Files.Includes settings.runtime output files owner ownerFiles ∧
        ∀ {v w : Visit} {schema : ObjectSchema} {content : Json}, library.HasUris →
          library.get? owner.uri = some owner → library.get? user.uri = some user →
          Document.read content = .ok user → library.Tracks owner →
          Visited library (Generate.Root library settings user) v → v.document ≠ owner →
          v.HasType ⟨library, settings.runtime⟩ → ReflTransGen (Visit.MadeFrom library) v w →
          w.declared? = some (.object schema) → w.document = owner →
            ownerFiles.wireHeader.isSome := by
  obtain ⟨huser, -, output, session, hrun, hfiles⟩ := mem_generated_iff.1 hgenerated
  obtain ⟨-, -, hrefers, hown⟩ := Generate.documentOutput_refersWithin _ hrun trivial trivial
  refine ⟨output, session, hrun, hfiles, fun title htitle ↦ ?_⟩
  obtain ⟨owner, howner, rfl⟩ := hrefers title htitle
  obtain ⟨ownerFiles, hownerGenerated⟩ := hall owner howner
  obtain ⟨-, -, ownerOutput, ownerSession, hownerRun, hownerFiles⟩ :=
    mem_generated_iff.1 hownerGenerated
  have hother : owner ≠ user := by
    rintro rfl
    exact hown htitle
  have hsame : ∀ other ∈ output.externals, capitalize other = capitalize owner.title →
      other = owner.title := by
    intro other hmem hcapitalized
    obtain ⟨document, hdocument, rfl⟩ := hrefers other hmem
    rw [eq_of_capitalize_eq hdistinct hdocument howner hcapitalized]
  refine ⟨owner, ownerFiles, hownerGenerated, rfl, hother, ?_, ?_⟩
  · rw [hfiles, hownerFiles]
    exact Files.assemble_includes htitle hsame rfl ownerOutput
  · intro v w schema content huris hget hgetUser hread htracks hvisited houtside htype hmade
      hdeclared hinside
    obtain ⟨stem, -, hcode⟩ := Generate.stands_of_used huris hget hgetUser hother.symm hread htracks
      hvisited houtside htype hmade hdeclared hinside hownerRun
    rw [hownerFiles]
    exact Files.isSome_wireHeader (hcode .containers (Names.containerClass stem)
      (List.mem_append_right _ List.mem_cons_self))

end Library

namespace OtherHeaders

/-- An API with a method that gives an object of the document `B`. -/
def userContent : Json := .object [("$id", .string "A"), ("title", .string "A"),
  ("methods", .array [.object [("name", .string "get"), ("params", .array []),
    ("result", .object [("name", .string "v"),
      ("schema", .object [("$ref", .string "B#/components/schemas/X")])])]])]

def object : Json := .object [("type", .string "object"), ("properties", .object [
  ("p", .object [("type", .string "integer")])])]

/-- The document `B` as an API. -/
def apiContent : Json := .object [("$id", .string "B"), ("title", .string "B"),
  ("methods", .array []), ("components", .object [("schemas", .object [("X", object)])])]

/-- The document `B` as one that only defines schemas. -/
def schemaContent : Json := .object [("$id", .string "B"), ("title", .string "B"),
  ("components", .object [("schemas", .object [("X", object)])])]

theorem isSome_read_user : (Document.read userContent).toOption.isSome := by cbv

theorem isSome_read_api : (Document.read apiContent).toOption.isSome := by decide +kernel

theorem isSome_read_schema : (Document.read schemaContent).toOption.isSome := by decide +kernel

def user : Document := (Document.read userContent).toOption.get isSome_read_user

def api : Document := (Document.read apiContent).toOption.get isSome_read_api

def schema : Document := (Document.read schemaContent).toOption.get isSome_read_schema

def settings : Settings := { pruneUnused := false }

def library (owner : Document) : Library := ⟨[user, owner]⟩

/-- The paths of all files, and the native header of the user. -/
def written? (owner : Document) : Option (List String × String) :=
  ((library owner).generate (fun _ ↦ true) settings).bind fun generation ↦
    generation.artifacts.head?.map fun files ↦
      (generation.files.map (·.path), files.nativeHeader.contents)

/-- The run over a document beside the one that only defines schemas. -/
def run (document : Document) : Option (Except Failure Output × Session) :=
  Generate.documentOutput (.ofBudget ⟨library schema, settings.runtime⟩ Generate.budget)
    (library schema) settings document {}

theorem run_user : (run user).any (fun ending ↦
    ending.1.toOption.any fun output ↦ output.externals == ["B"]) = true := by
  decide +kernel

theorem run_schema : (run schema).any (fun ending ↦
    ending.1.toOption.any fun _ ↦ true) = true := by
  decide +kernel

theorem titles_distinct :
    ((library schema).documents.map fun document ↦ capitalize document.title).Nodup := by
  decide +kernel

theorem mem_generated {document : Document} (hmem : document ∈ (library schema).documents)
    {output : Output} {session : Session} (hrun : run document = some (.ok output, session)) :
    (document, Files.assemble settings.runtime settings.headerText document output) ∈
      (library schema).generated (fun _ ↦ true) settings :=
  Library.mem_generated_iff.2 ⟨hmem, rfl, output, session, hrun, rfl⟩

theorem eq_schema {owner : Document} (hmem : owner ∈ (library schema).documents)
    (htitle : owner.title = "B") : owner = schema := by
  obtain rfl | hmem := List.mem_cons.1 hmem
  · exact absurd htitle (by decide +kernel)
  · exact List.mem_singleton.1 hmem

theorem family_schema : schema.family = .schema := by decide +kernel

/-- The header of the schema document is included by its path. -/
theorem schema_header_found : ∃ files ownerFiles,
    (user, files) ∈ (library schema).generated (fun _ ↦ true) settings ∧
    (schema, ownerFiles) ∈ (library schema).generated (fun _ ↦ true) settings ∧
    Text.Holds files.nativeHeader.contents "#include \"Common/B.h\"\n" ∧
    Files.join "include" "Common/B.h" = ownerFiles.nativeHeader.path := by
  obtain ⟨output, session, hrun, hexternals⟩ := Mapping.exists_ok_of_any run_user
  obtain ⟨ownerOutput, ownerSession, hownerRun, -⟩ := Mapping.exists_ok_of_any run_schema
  have huser := mem_generated List.mem_cons_self hrun
  have hschema := mem_generated (List.mem_cons_of_mem _ List.mem_cons_self) hownerRun
  have hall : ∀ document ∈ (library schema).documents, ∃ files,
      (document, files) ∈ (library schema).generated (fun _ ↦ true) settings := by
    intro document hdocument
    obtain rfl | hdocument := List.mem_cons.1 hdocument
    · exact ⟨_, huser⟩
    · obtain rfl := List.mem_singleton.1 hdocument
      exact ⟨_, hschema⟩
  obtain ⟨output', _, hrun', -, howners⟩ :=
    Library.includes_lead_to_owners hall titles_distinct huser
  cases hrun'.symm.trans hrun
  obtain ⟨owner, ownerFiles, howner, htitle, -, hincludes, -⟩ :=
    howners "B" (by rw [beq_iff_eq.1 hexternals]; exact List.mem_cons_self)
  have hmem := (Library.mem_generated_iff.1 howner).1
  obtain rfl := eq_schema hmem htitle
  have hline := hincludes.native_line
  have hpath := hincludes.native_path.2 family_schema
  rw [htitle] at hline hpath
  exact ⟨_, ownerFiles, huser, howner, hline, hpath⟩

/-- The header of the API is `include/B.h`, and what is included is `Common/B.h`. -/
theorem api_header_missed : written? api = some
    (["include/A.h", "src/A.cpp", "include/B.h", "src/JsonData_B.h", "src/B.cpp"],
      String.join [
        "#ifndef _A_H\n", "#define _A_H\n\n", "#include \"Firebolt.h\"\n",
        "#include \"Common/B.h\"\n\n", "#ifdef __cplusplus\n", "extern \"C\" \x7b\n",
        "#endif\n\n", "// Methods\n", "/* get */\n", "uint32_t A_Get(B_XHandle* v);\n\n",
        "#ifdef __cplusplus\n", "\x7d\n", "#endif\n\n", "#endif // _A_H\n"]) := by
  decide +kernel

end OtherHeaders

end SchemaBindings
