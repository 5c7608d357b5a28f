import SchemaBindings.Proofs.Layers
import SchemaBindings.Proofs.MergedProperties
import SchemaBindings.Proofs.Origins
import SchemaBindings.Proofs.Tracked

/-!
# Orderly documents

Documents are orderly if they are told apart by their titles and all of their references point at
definitions. Everything that is come to from them is then a schema with distinct names of
properties, and with references to one step under a root of definitions: what is read there, what
is inside of it, and what compositions merge into.
-/

namespace SchemaBindings

/-- The reference leads to the step of a definition, in any of its spellings. -/
def Library.PointsAtDefinition (library : Library) (document : Document) (reference : String) :
    Prop :=
  ∃ owner written,
    library.place? document reference = some (owner, owner.definitionsRoot ++ "/" ++ written) ∧
      '/' ∉ written.toList ∧
      String.ofList (Pointer.unescapeStep written.toList) ∈ Table.keys owner.definitions

/-- The reference is written in a schema of the document: in a method, in a definition, or in what
else stands under a root of definitions. -/
inductive Document.Writes (document : Document) (reference : String) : Prop
  | declared (h : reference ∈ document.references)
  | under {root : DefinitionsRoot} {written : String} (hslash : '/' ∉ written.toList)
      (h : document.Refers (root.pointer ++ "/" ++ written) reference)

/-- The documents are told apart by their URIs and by their titles, they are read in contents whose
objects have entries with distinct names, as all that come from texts do, and their references
point at definitions. -/
structure Library.Orderly (library : Library) (documents : List Document) : Prop where
  library_subset : library.documents ⊆ documents
  eq_of_uri : ∀ document ∈ documents, ∀ other ∈ documents, document.uri = other.uri →
    document = other
  eq_of_title : ∀ document ∈ documents, ∀ other ∈ documents, document.title = other.title →
    document = other
  read : ∀ document ∈ documents, Document.read document.content = .ok document
  distinct : ∀ document ∈ documents, document.content.Distinct
  points : ∀ document ∈ documents, ∀ reference, document.Writes reference →
    library.PointsAtDefinition document reference

/-- The fragment of the reference is one step under a root of definitions. -/
def Rooted (reference : String) : Prop :=
  ∃ (root : DefinitionsRoot) (written : String), '/' ∉ written.toList ∧
    (splitReference reference).2 = root.pointer ++ "/" ++ written

/-- Properties have distinct names everywhere in the schema, and its references point at
definitions. -/
structure Node.Orderly (node : Node) : Prop where
  distinct : node.kind.Distinct
  rooted : ∀ reference ∈ node.references, Rooted reference

theorem Node.Orderly.part {part whole : Node} (h : whole.Orderly) (hpart : Node.Part part whole) :
    part.Orderly where
  distinct := h.distinct.inside hpart.holds
  rooted reference hmem := h.rooted reference (Node.references_subset hpart.mem_mentions hmem)

theorem Node.Orderly.of_kind_eq {node other : Node} (h : node.Orderly)
    (hkind : other.kind = node.kind) : other.Orderly := by
  obtain ⟨title, description, kind⟩ := node
  obtain ⟨_, _, _⟩ := other
  cases hkind
  exact ⟨h.distinct, h.rooted⟩

/-- The members of a composition. -/
theorem Node.Orderly.member {outer node : Node} {members : List Node} (h : outer.Orderly)
    (hkind : outer.kind = .allOf members) (hmember : node ∈ members) : node.Orderly where
  distinct := h.distinct.inside (hkind ▸ .member hmember)
  rooted reference hmem := h.rooted reference (Node.references_member hkind hmember hmem)

theorem Node.Orderly.rooted_of_kind {node : Node} {reference : String} (h : node.Orderly)
    (hkind : node.kind = .reference reference) : Rooted reference := by
  obtain ⟨title, description, kind⟩ := node
  cases hkind
  exact h.rooted reference (List.mem_singleton_self reference)

/-- A qualified reference has the same fragment. -/
theorem Rooted.copyReference {o : Occurrence} {reference : String} (h : Rooted reference)
    (hnamed : o.Named) : Rooted (o.copyReference reference) := by
  obtain ⟨root, written, hslash, hfragment⟩ := h
  refine ⟨root, written, hslash, ?_⟩
  rw [← hfragment]
  unfold Occurrence.copyReference qualifyReference
  split
  case isTrue hforeign =>
    split
    case isTrue hlocal =>
      rw [splitReference_qualified (hnamed hforeign).2 hlocal, splitReference_local hlocal]
    case isFalse => rfl
  case isFalse => rfl

theorem Document.definitionsRoot_eq {content : Json} {document : Document}
    (h : Document.read content = .ok document) :
    ∃ root : DefinitionsRoot, document.definitionsRoot = root.pointer := by
  obtain ⟨-, -, hroot, -⟩ := Document.read_eq_ok h
  rw [hroot]
  unfold rawDefinitions
  split
  · exact ⟨.definitions, rfl⟩
  · split
    · exact ⟨.components, rfl⟩
    · split
      · exact ⟨.components, rfl⟩
      · exact ⟨.definitions, rfl⟩

/-- The steps to where the definitions of a document stand. -/
def DefinitionsRoot.steps : DefinitionsRoot → List String
  | definitions => ["definitions"]
  | components => ["components", "schemas"]

theorem Pointer.steps?_slashed {first : List Char} {parts : List (List Char)}
    (hfirst : Text.splitChars '/' first = [first]) (hparts : ∀ part ∈ parts, '/' ∉ part) :
    Pointer.steps? (String.ofList ('/' :: (first ++ slashed parts))) =
      some ((first :: parts).map fun part ↦ String.ofList (Pointer.unescapeStep part)) := by
  unfold Pointer.steps?
  rw [String.toList_ofList]
  change some ((Text.splitChars '/' (first ++ slashed parts)).map _) = _
  rw [splitChars_slashed _ hparts, hfirst]
  rfl

/-- What stands under a root of definitions is one step further. -/
theorem Document.fragment?_under (document : Document) (root : DefinitionsRoot) {written : String}
    (hslash : '/' ∉ written.toList) :
    document.fragment? (root.pointer ++ "/" ++ written) =
      (root.steps ++ [String.ofList (Pointer.unescapeStep written.toList)]).foldlM Json.step?
        document.content := by
  have hat : ∀ (first : List Char) (parts : List (List Char)),
      Text.splitChars '/' first = [first] → (∀ part ∈ parts, '/' ∉ part) →
        (root.pointer ++ "/" ++ written).toList = '#' :: '/' :: (first ++ slashed parts) →
          document.fragment? (root.pointer ++ "/" ++ written) =
            ((first :: parts).map fun part ↦ String.ofList (Pointer.unescapeStep part)).foldlM
              Json.step? document.content := by
    intro first parts hfirst hparts htext
    unfold Document.fragment? Json.at?
    rw [htext]
    change (Pointer.steps? (String.ofList ('/' :: (first ++ slashed parts)))).bind _ = _
    rw [Pointer.steps?_slashed hfirst hparts]
    rfl
  cases root with
  | definitions =>
    refine hat "definitions".toList [written.toList] (by decide) (by simpa using hslash) ?_
    simp [DefinitionsRoot.pointer, slashed]
  | components =>
    refine hat "components".toList ["schemas".toList, written.toList] (by decide) ?_ ?_
    · simpa using hslash
    · simp [DefinitionsRoot.pointer, slashed]

/-- A definition is one step under a root of definitions. -/
theorem Document.definitionRef_eq {content : Json} {document : Document}
    (h : Document.read content = .ok document) (name : String) :
    ∃ (root : DefinitionsRoot) (written : String), '/' ∉ written.toList ∧
      document.definitionRef name = root.pointer ++ "/" ++ written := by
  obtain ⟨root, hroot⟩ := Document.definitionsRoot_eq h
  refine ⟨root, String.ofList (Pointer.escapeStep name.toList), ?_, ?_⟩
  · rw [String.toList_ofList]
    exact Pointer.slash_notMem_escapeStep _
  · rw [← hroot]
    rfl

namespace Library.Orderly

variable {library : Library} {documents : List Document} (h : library.Orderly documents)
  {document : Document} {reference place : String} {target : Target}
include h

theorem owner_mem (hdocument : document ∈ documents)
    (htarget : library.resolve document reference place = .ok target) :
    target.owner ∈ documents := by
  obtain heq | hmem := Library.owner_of_resolve htarget
  · rwa [heq]
  · exact h.library_subset hmem

theorem rooted (hdocument : document ∈ documents) (hwrites : document.Writes reference) :
    Rooted reference := by
  obtain ⟨owner, written, hplace, hslash, -⟩ := h.points document hdocument reference hwrites
  have howner : owner ∈ documents := by
    obtain rfl | ⟨hget, -⟩ := Library.owner_of_place? hplace
    · exact hdocument
    · exact h.library_subset (Library.mem_of_get? hget)
  obtain ⟨root, hroot⟩ := Document.definitionsRoot_eq (h.read owner howner)
  exact ⟨root, written, hslash, by rw [← Library.fragment_of_place? hplace, hroot]⟩

/-- What is read under a root of definitions. -/
theorem of_fragment (hdocument : document ∈ documents) {root : DefinitionsRoot} {written : String}
    (hslash : '/' ∉ written.toList) {value : Json} {node : Node}
    (hvalue : document.fragment? (root.pointer ++ "/" ++ written) = some value)
    (hnode : Node.read (document.schemaPath (root.pointer ++ "/" ++ written)) value = .ok node) :
    node.Orderly where
  distinct := Node.distinct_of_read hnode
    (Document.distinct_of_fragment? (h.distinct document hdocument) hvalue)
  rooted _ hmem := h.rooted hdocument (.under hslash ⟨value, node, hvalue, hnode, hmem⟩)

theorem orderly_target (hdocument : document ∈ documents) (hrooted : Rooted reference)
    (htarget : library.resolve document reference place = .ok target) :
    target.owner ∈ documents ∧ target.node.Orderly := by
  obtain ⟨root, written, hslash, hfragment⟩ := hrooted
  have howner := h.owner_mem hdocument htarget
  obtain ⟨fragment, value, hplace, hvalue, hread, -⟩ := Library.resolve_eq_ok htarget
  obtain rfl : fragment = root.pointer ++ "/" ++ written :=
    (Library.fragment_of_place? hplace).trans hfragment
  exact ⟨howner, h.of_fragment howner hslash hvalue hread⟩

/-- What a schema is flattened to stands in one of the documents, and it is orderly. -/
theorem reaches {o o' : Occurrence} (hreaches : o.Reaches library o') (hhome : o.home ∈ documents)
    (horderly : o.node.Orderly) (hforeign : o.isForeign = false) :
    o'.home ∈ documents ∧ o'.node.Orderly ∧ o'.Named := by
  induction hreaches with
  | refl => exact ⟨hhome, horderly, fun hother ↦ by simp [hforeign] at hother⟩
  | @tail between _ _ hlast ih =>
    obtain ⟨hhome', horderly', hnamed⟩ := ih
    cases hlast with
    | @reference reference place target hkind htarget =>
      have hrooted := (horderly'.rooted_of_kind hkind).copyReference hnamed
      obtain ⟨howner, hnode⟩ := h.orderly_target hhome' hrooted htarget
      exact ⟨howner, hnode, Occurrence.named_of_resolve htarget⟩
    | @member nodes node hkind hnode =>
      exact ⟨hhome', horderly'.member hkind hnode, hnamed⟩

theorem merged {outer merged : Node} {members : List Node} {budget : Nat} {path : String}
    {session session' : Session} (hdocument : document ∈ documents) (houter : outer.Orderly)
    (hkind : outer.kind = .allOf members)
    (hmerge : mergeAllOf library budget document outer members path session =
      some (.ok merged, session')) : merged.Orderly := by
  have hreached : ∀ member ∈ members, ∀ o, Occurrence.Reaches library ⟨document, member, false⟩ o →
      o.node.Orderly ∧ o.Named := fun member hmember o hreaches ↦
    (h.reaches hreaches hdocument (houter.member hkind hmember) rfl).2
  refine ⟨Kind.distinct_mergeAllOf (fun member hmember o hreaches ↦
    (hreached member hmember o hreaches).1.distinct) hmerge, fun copied hcopied ↦ ?_⟩
  obtain ⟨member, hmember, o, hreaches, hcopy⟩ :=
    exists_reaches_of_mergeAllOf hmerge ((Node.mem_references merged).1 hcopied)
  obtain ⟨reference, hreference, rfl⟩ := Occurrence.reference_of_copy hcopy
  obtain ⟨hnode, hnamed⟩ := hreached member hmember o hreaches
  exact (hnode.rooted reference ((Node.mem_references o.node).2 hreference)).copyReference hnamed

end Library.Orderly

end SchemaBindings
