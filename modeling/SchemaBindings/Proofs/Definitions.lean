import SchemaBindings.Output.Generate
import SchemaBindings.Proofs.Spelling

/-!
# Definitions in other documents

A document that refers to a definition of another one maps it with a registry of its own, and both
documents get the same type as far as the two registries know the same stems. The definitions of a
document claim their stems before anything else in it, but the elements of an array that is
defined claim theirs when they are come to, so that what carries the array may differ.
-/

namespace SchemaBindings

theorem eq_ok_get {ε α : Type} {result : Except ε α} (h : result.toOption.isSome) :
    result = .ok (result.toOption.get h) := by
  cases result with
  | ok value => rfl
  | error failure => cases h

theorem isLocal_child {pointer : String} (h : isLocal pointer) (step : String) :
    isLocal (Pointer.child pointer step) := by
  obtain ⟨rest, rfl⟩ := Text.startsWith_hash h
  unfold isLocal Text.startsWith
  simp [Pointer.child]

namespace Document

theorem read_eq_ok {content : Json} {document : Document} (h : read content = .ok document) :
    readEntries (document.title ++ document.definitionsRoot) (rawDefinitions content).2 =
        .ok document.definitions ∧
      readMethods document.title 0 (elements content "methods") = .ok document.methods ∧
      document.definitionsRoot = (rawDefinitions content).1 ∧ document.content = content := by
  unfold read at h
  cases htitle : title? content with
  | none =>
    rw [htitle] at h
    cases h
  | some title =>
    rw [htitle] at h
    generalize rawDefinitions content = roots at h ⊢
    obtain ⟨root, raw⟩ := roots
    obtain ⟨definitions, hdefinitions, hrest⟩ := Failure.bind_eq_ok.1 h
    obtain ⟨methods, hmethods, hdocument⟩ := Failure.bind_eq_ok.1 hrest
    cases hdocument
    exact ⟨hdefinitions, hmethods, rfl, rfl⟩

theorem isLocal_rawDefinitions (content : Json) : isLocal (rawDefinitions content).1 := by
  have hlibrary : isLocal "#/definitions" := by decide
  have hapi : isLocal "#/components/schemas" := by decide
  unfold rawDefinitions
  split
  · exact hlibrary
  · split
    · exact hapi
    · split
      · exact hapi
      · exact hlibrary

/-- Definitions are referred to inside their document. -/
theorem isLocal_definitionRef {content : Json} {document : Document}
    (h : read content = .ok document) (name : String) : isLocal (document.definitionRef name) := by
  have hroot : isLocal document.definitionsRoot := by
    rw [(read_eq_ok h).2.2.1]
    exact isLocal_rawDefinitions content
  exact isLocal_child hroot name

end Document

/-- A document that refers to a definition of another one gets a type of the same shape, and with
the same name, or the same wire type, exactly if the two registries know the same stem of the
schema that is spelled there. -/
theorem definition_agrees_iff {cx : Context} (huris : cx.library.HasUris) {user owner : Document}
    (howner : cx.library.get? owner.uri = some owner)
    {content : Json} (hread : Document.read content = .ok owner) (hother : user.uri ≠ owner.uri)
    {name : String} {request request' : Request} {before after before' after' : Session}
    {type type' : NativeType}
    (h : Native.Ends cx user (.ofKind (.reference (owner.uri ++ owner.definitionRef name)))
      request before (.ok type) after)
    (h' : Native.Ends cx owner (.ofKind (.reference (owner.definitionRef name))) request' before'
      (.ok type') after') :
    ∃ budget spelling,
      Native.spell? cx budget owner (.ofKind (.reference (owner.definitionRef name))) request' =
        some spelling ∧
      type.shape = type'.shape ∧
      (type.name = type'.name ↔ ∀ path ∈ spelling.name.path?,
        after.registry.stem? path = after'.registry.stem? path) ∧
      (type.wire = type'.wire ↔ ∀ path ∈ spelling.wire.path?,
        after.registry.stem? path = after'.registry.stem? path) := by
  obtain ⟨budget, hrun⟩ := h
  obtain ⟨budget', hrun'⟩ := h'
  have hlocal := Document.isLocal_definitionRef hread name
  obtain ⟨hne, -⟩ := huris owner (Library.mem_of_get? howner)
  have hfound : cx.library.owner? user owner.uri = some owner := by
    unfold Library.owner?
    rw [if_neg (not_or.2 ⟨hne, Ne.symm hother⟩), howner]
  have hplace := Library.place?_qualified huris howner hfound hlocal
  obtain ⟨spelling, hspelling, hdescribes⟩ := Native.map_spells budget hrun
  obtain ⟨spelling', hspelling', hdescribes'⟩ := Native.map_spells budget' hrun'
  cases budget with
  | zero => cases hrun
  | succ budget =>
  cases budget' with
  | zero => cases hrun'
  | succ budget' =>
  cases Native.spell?_of_place?_eq hspelling hspelling' hplace
  exact ⟨budget' + 1, spelling, hspelling', hdescribes.shape_eq.trans hdescribes'.shape_eq.symm,
    hdescribes.name.eq_iff hdescribes'.name, hdescribes.wire.eq_iff hdescribes'.wire⟩

namespace InlineElement

def objectOf (name : String) (property : Json) : List (String × Json) :=
  [("type", .string "object"), ("properties", .object [(name, property)])]

def documentOf (title : String) (definitions : List (String × Json)) : Json :=
  .object [("$id", .string title), ("title", .string title), ("definitions", .object definitions)]

/-- What `P` has inside and the elements of `X` prefer the same stem. -/
def ownerContent : Json := documentOf "B" [
  ("P", .object (objectOf "list" (.object (objectOf "n"
    (.object [("type", .string "integer")]))))),
  ("X", .object [("type", .string "array"), ("items", .object (("title", .string "P_List") ::
    objectOf "s" (.object [("type", .string "string")])))])]

def userContent : Json := documentOf "A" [
  ("Y", .object (objectOf "x" (.object [("$ref", .string "B#/definitions/X")])))]

theorem isSome_read_owner : (Document.read ownerContent).toOption.isSome := by decide +kernel

theorem isSome_read_user : (Document.read userContent).toOption.isSome := by cbv

def owner : Document := (Document.read ownerContent).toOption.get isSome_read_owner

def user : Document := (Document.read userContent).toOption.get isSome_read_user

theorem read_owner : Document.read ownerContent = .ok owner := eq_ok_get isSome_read_owner

theorem uri_owner : owner.uri = "B" := by decide +kernel

theorem uri_user : user.uri = "A" := by cbv

def cx : Context := ⟨⟨[user, owner]⟩, {}⟩

def settings : Settings := { pruneUnused := false }

/-- The session in which the run over `owner` comes to its second definition. -/
def afterFirst : Session :=
  let mapped := (Generate.mapDefinition (.ofBudget cx 8) owner "P").run {} {}
  (mapped.map (·.2)).getD {}

/-- Name and wire type that come of a mapping. -/
def names (run : Option (Except Failure NativeType × Session)) : Option (String × String) :=
  match run with
  | some (.ok type, _) => some (type.name, type.wire)
  | _ => none

theorem exists_run_of_names {run : Option (Except Failure NativeType × Session)}
    {found : String × String} (h : names run = some found) :
    ∃ type session, run = some (.ok type, session) := by
  unfold names at h
  split at h
  · exact ⟨_, _, rfl⟩
  · cases h

theorem names_in_user :
    names (Native.map cx 8 user (.ofKind (.reference "B#/definitions/X"))
      ⟨"x", "Y", "A#/definitions/Y/properties/x"⟩ {}) =
    some ("B_XArrayHandle",
      "WPEFramework::Core::JSON::ArrayType<FireboltSDK::B::JsonData_P_List>") := by
  decide +kernel

theorem names_in_owner :
    names (Native.map cx 8 owner (.ofKind (.reference "#/definitions/X"))
      ⟨"X", "", "B#/definitions/X"⟩ afterFirst) =
    some ("B_XArrayHandle",
      "WPEFramework::Core::JSON::ArrayType<FireboltSDK::B::JsonData_P_List_2>") := by
  decide +kernel

/-- Both documents are generated, and the elements of `X` go by different names in them. -/
theorem elements_renamed :
    (cx.library.generateDocument settings user).any (·.generated.isSome) = true ∧
    (cx.library.generateDocument settings owner).any (·.generated.isSome) = true ∧
    names (Native.map cx 8 user (.ofKind (.reference "B#/definitions/X"))
      ⟨"x", "Y", "A#/definitions/Y/properties/x"⟩ {}) =
      some ("B_XArrayHandle",
        "WPEFramework::Core::JSON::ArrayType<FireboltSDK::B::JsonData_P_List>") ∧
    names (Native.map cx 8 owner (.ofKind (.reference "#/definitions/X"))
      ⟨"X", "", "B#/definitions/X"⟩ afterFirst) =
      some ("B_XArrayHandle",
        "WPEFramework::Core::JSON::ArrayType<FireboltSDK::B::JsonData_P_List_2>") :=
  ⟨by decide +kernel, by decide +kernel, names_in_user, names_in_owner⟩

theorem hasUris_library : cx.library.HasUris := by
  intro document hdocument
  have hcases : document = user ∨ document = owner := by simpa [cx] using hdocument
  obtain rfl | rfl := hcases
  · rw [uri_user]
    exact ⟨by decide, by decide⟩
  · rw [uri_owner]
    exact ⟨by decide, by decide⟩

theorem get?_owner : cx.library.get? owner.uri = some owner := by
  have hne : user.uri ≠ owner.uri := by
    rw [uri_user, uri_owner]
    decide
  simp [cx, Library.get?, hne]

theorem elements_agree_iff : ∃ type after type' after',
    Native.Ends cx user (.ofKind (.reference (owner.uri ++ owner.definitionRef "X")))
      ⟨"x", "Y", "A#/definitions/Y/properties/x"⟩ {} (.ok type) after ∧
    Native.Ends cx owner (.ofKind (.reference (owner.definitionRef "X")))
      ⟨"X", "", "B#/definitions/X"⟩ afterFirst (.ok type') after' ∧
    ∃ budget spelling,
      Native.spell? cx budget owner (.ofKind (.reference (owner.definitionRef "X")))
        ⟨"X", "", "B#/definitions/X"⟩ = some spelling ∧
      type.shape = type'.shape ∧
      (type.name = type'.name ↔ ∀ path ∈ spelling.name.path?,
        after.registry.stem? path = after'.registry.stem? path) ∧
      (type.wire = type'.wire ↔ ∀ path ∈ spelling.wire.path?,
        after.registry.stem? path = after'.registry.stem? path) := by
  have hreference : owner.definitionRef "X" = "#/definitions/X" := by decide +kernel
  have hqualified : owner.uri ++ owner.definitionRef "X" = "B#/definitions/X" := by
    rw [uri_owner, hreference]
    decide
  obtain ⟨type, after, hrun⟩ := exists_run_of_names names_in_user
  obtain ⟨type', after', hrun'⟩ := exists_run_of_names names_in_owner
  have hends : Native.Ends cx user
      (.ofKind (.reference (owner.uri ++ owner.definitionRef "X")))
      ⟨"x", "Y", "A#/definitions/Y/properties/x"⟩ {} (.ok type) after := by
    rw [hqualified]
    exact ⟨8, hrun⟩
  have hends' : Native.Ends cx owner (.ofKind (.reference (owner.definitionRef "X")))
      ⟨"X", "", "B#/definitions/X"⟩ afterFirst (.ok type') after' := by
    rw [hreference]
    exact ⟨8, hrun'⟩
  have hother : user.uri ≠ owner.uri := by
    rw [uri_user, uri_owner]
    decide
  exact ⟨type, after, type', after', hends, hends',
    definition_agrees_iff hasUris_library get?_owner read_owner hother hends hends'⟩

end InlineElement

end SchemaBindings
