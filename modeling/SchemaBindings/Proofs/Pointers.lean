import SchemaBindings.Proofs.Order
import SchemaBindings.Proofs.Orderly

/-!
# Where definitions stand

A document refers to a definition of its own by the place that the definition was read at. Escaping
the name is undone by the pointer, so that following the reference reads the same value at the same
place once more. Whatever the name is, the reference stays whole: it is cut at its first number
sign, which stands in front of the root of the definitions, or behind a URI that has none.
-/

namespace SchemaBindings

section

variable {document : Document} {content : Json} {name : String} {node : Node}

theorem exists_get?_of_readEntries {path : String} {entries : Schema.Entries}
    {nodes : List (String × Node)} (h : readEntries path entries = .ok nodes)
    (hnode : Table.get? name nodes = some node) :
    ∃ value, Table.get? name entries = some value ∧
      Node.read (Pointer.child path name) value = .ok node := by
  induction entries generalizing nodes with
  | nil =>
    rw [readEntries] at h
    cases h
    cases hnode
  | cons entry rest ih =>
    obtain ⟨key, value⟩ := entry
    rw [readEntries] at h
    obtain ⟨first, hfirst, hothers⟩ := Failure.bind_eq_ok.1 h
    obtain ⟨others, hrest, hpure⟩ := Failure.bind_eq_ok.1 hothers
    cases hpure
    by_cases hkey : key = name
    · subst hkey
      rw [Table.get?, if_pos rfl] at hnode
      cases hnode
      exact ⟨value, if_pos rfl, hfirst⟩
    · rw [Table.get?, if_neg hkey] at hnode
      obtain ⟨found, hfound, hread⟩ := ih hrest hnode
      exact ⟨found, (if_neg hkey).trans hfound, hread⟩

/-- The last step of a pointer is the name that the pointer was made with. -/
theorem Pointer.lastStep_child (path step : String) : lastStep (child path step) = step := by
  have htext : (child path step).toList = path.toList ++ '/' :: escapeStep step.toList := by
    simp [child]
  unfold lastStep
  rw [htext, Folder.splitChars_append, Folder.splitChars_of_notMem (slash_notMem_escapeStep _)]
  simp [unescapeStep_escapeStep]

namespace Document

theorem step?_of_get? {value found : Json} {key : String} (h : value.get? key = some found) :
    value.step? key = some found := by
  cases value with
  | object entries => exact h
  | _ => cases h

/-- The steps to a definition lead to the value that it is read from. -/
theorem exists_root_of_rawDefinitions {value : Json}
    (h : Table.get? name (rawDefinitions content).2 = some value) :
    ∃ root : DefinitionsRoot, (rawDefinitions content).1 = root.pointer ∧
      (root.steps ++ [name]).foldlM Json.step? content = some value := by
  unfold rawDefinitions at h ⊢
  split at h
  case h_1 definitions hdefinitions =>
    refine ⟨.definitions, rfl, ?_⟩
    rw [List.foldlM_append]
    exact Option.bind_eq_some_iff.2 ⟨_, Option.bind_eq_some_iff.2
      ⟨_, step?_of_get? hdefinitions, rfl⟩, Option.bind_eq_some_iff.2 ⟨_, h, rfl⟩⟩
  case h_2 =>
    split at h
    case h_1 definitions hdefinitions =>
      refine ⟨.components, rfl, ?_⟩
      rw [List.foldlM_append]
      exact Option.bind_eq_some_iff.2 ⟨_, hdefinitions, Option.bind_eq_some_iff.2 ⟨_, h, rfl⟩⟩
    case h_2 => split at h <;> cases h

/-- A definition is at the place that the document refers to it by. -/
theorem place?_definitionRef {library : Library} (hread : Document.read content = .ok document)
    (name : String) : library.place? document (document.definitionRef name) =
      some (document, document.definitionRef name) :=
  Library.place?_of_isLocal (Document.isLocal_definitionRef hread name)

/-- The value that a definition is read from is found under the reference to the definition. -/
theorem fragment?_definitionRef (hread : Document.read content = .ok document)
    (hnode : Table.get? name document.definitions = some node) :
    ∃ value, Table.get? name (rawDefinitions content).2 = some value ∧
      document.fragment? (document.definitionRef name) = some value ∧
      Node.read (document.schemaPath (document.definitionRef name)) value = .ok node := by
  obtain ⟨hdefinitions, -, hroot, hcontent⟩ := Document.read_eq_ok hread
  obtain ⟨value, hvalue, hreadValue⟩ := exists_get?_of_readEntries hdefinitions hnode
  obtain ⟨root, hpointer, hsteps⟩ := exists_root_of_rawDefinitions hvalue
  have hreference : document.definitionRef name =
      root.pointer ++ "/" ++ String.ofList (Pointer.escapeStep name.toList) := by
    unfold definitionRef Pointer.child
    rw [hroot, hpointer]
  have hschemaPath : document.schemaPath (document.definitionRef name) =
      Pointer.child (document.title ++ document.definitionsRoot) name := by
    simp only [schemaPath, definitionRef, Pointer.child, String.append_assoc]
  refine ⟨value, hvalue, ?_, by rwa [hschemaPath]⟩
  rw [hreference, Document.fragment?_under]
  · rw [String.toList_ofList, Pointer.unescapeStep_escapeStep, String.ofList_toList, hcontent]
    exact hsteps
  · rw [String.toList_ofList]
    exact Pointer.slash_notMem_escapeStep _

/-- What a reference to a definition leads to, as seen from `current`. A definition without a title
is called by its name. -/
def definitionTarget (document current : Document) (name : String) (node : Node) : Target where
  owner := document
  node := node
  title := node.title.getD name
  isExternal := document.uri ≠ current.uri
  key := document.uri ++ document.definitionRef name
  path := document.title ++ document.definitionRef name

/-- Every reference to the place of a definition leads to the definition. -/
theorem resolve_of_place?_definitionRef {library : Library} {current : Document}
    {reference : String} (hread : Document.read content = .ok document)
    (hplace : library.place? current reference = some (document, document.definitionRef name))
    (hnode : Table.get? name document.definitions = some node) (place : String) :
    library.resolve current reference place =
      .ok (definitionTarget document current name node) := by
  obtain ⟨value, -, hfragment, hreadValue⟩ := fragment?_definitionRef hread hnode
  have htitle : node.title.getD name =
      node.title.getD (Pointer.lastStep (document.definitionRef name)) := by
    rw [definitionRef, Pointer.lastStep_child]
  have hpath : document.title ++ document.definitionRef name =
      document.schemaPath (document.definitionRef name) := rfl
  exact Library.resolve_eq_ok_iff.2
    ⟨_, value, hplace, hfragment, hreadValue, htitle, rfl, rfl, hpath⟩

/-- A reference to this place leads to the schema that is read for the definition. -/
theorem resolve_definition {library : Library} {reference : String}
    (hread : Document.read content = .ok document)
    (hplace : library.place? document reference = some (document, document.definitionRef name))
    (hnode : Table.get? name document.definitions = some node) (place : String) :
    ∃ target, library.resolve document reference place = .ok target ∧
      target.owner = document ∧ target.node = node ∧ target.isExternal = false ∧
      target.key = document.uri ++ document.definitionRef name :=
  ⟨_, resolve_of_place?_definitionRef hread hplace hnode place, rfl, rfl,
    decide_eq_false fun h ↦ h rfl, rfl⟩

/-- References to definitions lead back to the definitions, whatever the names are. The fragment of
such a reference is where the document has the value that the definition was read from, and the
reference resolves to the definition in its own document. Behind the URI of the document it does so
in all other documents of a library as well, if the URI is not empty and has no number sign. -/
theorem definition_references_lead_back (hread : Document.read content = .ok document)
    (hnode : Table.get? name document.definitions = some node) :
    (∃ value, Table.get? name (rawDefinitions content).2 = some value ∧
      document.fragment? (document.definitionRef name) = some value ∧
      Node.read (document.schemaPath (document.definitionRef name)) value = .ok node) ∧
    (∀ (library : Library) (place : String),
      library.resolve document (document.definitionRef name) place = .ok {
        owner := document
        node := node
        title := node.title.getD name
        isExternal := false
        key := document.uri ++ document.definitionRef name
        path := document.title ++ document.definitionRef name }) ∧
    ∀ (documents : List Document) (other : Document) (place : String),
      let library := Library.ofList documents
      document ∈ library.documents → other ∈ library.documents → other ≠ document →
      document.uri ≠ "" → '#' ∉ document.uri.toList →
      library.resolve other (document.uri ++ document.definitionRef name) place = .ok {
        owner := document
        node := node
        title := node.title.getD name
        isExternal := true
        key := document.uri ++ document.definitionRef name
        path := document.title ++ document.definitionRef name } := by
  refine ⟨fragment?_definitionRef hread hnode, fun library place ↦ ?_,
    fun documents other place hdocument hother hne huri hhash ↦ ?_⟩
  · have hplace : library.place? document (document.definitionRef name) =
        some (document, document.definitionRef name) := place?_definitionRef hread name
    rw [resolve_of_place?_definitionRef hread hplace hnode, definitionTarget]
    simp
  · let library := Library.ofList documents
    have hdistinct := Library.nodup_uris_ofList documents
    have hforeign : document.uri ≠ other.uri := fun hsame ↦
      hne (List.inj_on_of_nodup_map hdistinct hother hdocument hsame.symm)
    have howner : library.owner? other document.uri = some document := by
      unfold Library.owner?
      rw [if_neg fun h ↦ h.elim huri hforeign]
      exact (Library.get?_eq_some_iff hdistinct).2 ⟨hdocument, rfl⟩
    have hplace := Library.place?_of_owner? hhash howner (isLocal_definitionRef hread name)
    rw [resolve_of_place?_definitionRef hread hplace hnode, definitionTarget,
      decide_eq_true hforeign]

end Document

end

namespace OddName

/-- The name of the definition has all characters that are written in another way, and one that
looks as if it were written so. -/
def name : String := "a/b~1#"

def content : Json := .object [("$id", .string "Odd"), ("title", .string "Odd"),
  ("definitions", .object [(name, .object [("type", .string "string")])])]

def otherContent : Json := .object [("$id", .string "Even"), ("title", .string "Even")]

theorem isSome_read : (Document.read content).toOption.isSome := by decide +kernel

theorem isSome_read_other : (Document.read otherContent).toOption.isSome := by decide +kernel

def document : Document := (Document.read content).toOption.get isSome_read

def other : Document := (Document.read otherContent).toOption.get isSome_read_other

theorem uris : [document, other].map (·.uri) = ["Odd", "Even"] := by decide +kernel

theorem exists_definition : (Table.get? name document.definitions).isSome := by decide +kernel

theorem definitionRef_name : document.definitionRef name = "#/definitions/a~1b~01#" := by
  decide +kernel

/-- The definition is found under its name in both documents. -/
theorem odd_name_leads_back : ∃ node, Table.get? name document.definitions = some node ∧
    document.fragment? "#/definitions/a~1b~01#" = some (.object [("type", .string "string")]) ∧
    (∃ target, (Library.ofList [document, other]).resolve document "#/definitions/a~1b~01#" "" =
      .ok target ∧ target.node = node ∧ target.isExternal = false) ∧
    ∃ target, (Library.ofList [document, other]).resolve other "Odd#/definitions/a~1b~01#" "" =
      .ok target ∧ target.node = node ∧ target.isExternal = true := by
  obtain ⟨node, hnode⟩ := Option.isSome_iff_exists.1 exists_definition
  have hread : Document.read content = .ok document := eq_ok_get isSome_read
  obtain ⟨⟨value, hvalue, hfragment, -⟩, hlocal, hqualified⟩ :=
    Document.definition_references_lead_back hread hnode
  have huri : document.uri = "Odd" := (List.cons.inj uris).1
  have hdocuments : (Library.ofList [document, other]).documents = [document, other] :=
    Library.documents_ofList (by rw [uris]; decide)
  have hother : other ≠ document := by
    intro hsame
    have hnodup : ([document, other].map (·.uri)).Nodup := by rw [uris]; decide
    simp [hsame] at hnodup
  have hfound := hqualified [document, other] other "" (by simp [hdocuments]) (by simp [hdocuments])
    hother (by rw [huri]; decide) (by rw [huri]; decide)
  rw [definitionRef_name] at hfragment hlocal hfound
  rw [huri] at hfound
  cases hvalue
  exact ⟨node, hnode, hfragment, ⟨_, hlocal _ "", rfl, rfl⟩, ⟨_, hfound, rfl, rfl⟩⟩

end OddName

end SchemaBindings
