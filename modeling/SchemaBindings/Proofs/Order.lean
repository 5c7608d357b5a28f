import SchemaBindings.Proofs.Kept
import SchemaBindings.Proofs.Paths

/-!
# Order of the documents

A library is read in two ways only: a document is looked up by its URI, and the schemas of all
other documents are searched for references. Neither depends on the order of the documents when
their URIs are distinct. The search for kept definitions goes through a list that is in the order
of the documents, but what it finds is what can be reached from the references of the others.
-/

namespace SchemaBindings

open Keep

/-! ### Lookups -/

namespace Library

/-- The same documents under the same URIs, in whatever order. -/
structure SameDocuments (left right : Library) : Prop where
  get : left.get? = right.get?
  mem : ∀ document, document ∈ left.documents ↔ document ∈ right.documents

theorem get?_eq_some_iff {library : Library} (h : (library.documents.map (·.uri)).Nodup)
    {uri : String} {document : Document} :
    library.get? uri = some document ↔ document ∈ library.documents ∧ document.uri = uri := by
  constructor
  · intro hget
    exact ⟨mem_of_get? hget, uri_of_get? hget⟩
  · rintro ⟨hmem, rfl⟩
    cases hfound : library.get? document.uri with
    | none =>
      have hnone := List.find?_eq_none.1 hfound document hmem
      simp at hnone
    | some found =>
      have hsame : found = document :=
        List.inj_on_of_nodup_map h (mem_of_get? hfound) hmem (uri_of_get? hfound)
      rw [hsame]

theorem sameDocuments_of_perm {left right : Library}
    (hperm : left.documents.Perm right.documents)
    (hdistinct : (left.documents.map (·.uri)).Nodup) : SameDocuments left right := by
  have hmem : ∀ document, document ∈ left.documents ↔ document ∈ right.documents :=
    fun _ ↦ hperm.mem_iff
  have hdistinct' : (right.documents.map (·.uri)).Nodup := (hperm.map _).nodup_iff.1 hdistinct
  refine ⟨?_, hmem⟩
  funext uri
  apply Option.ext
  intro document
  rw [get?_eq_some_iff hdistinct, get?_eq_some_iff hdistinct', hmem]

theorem insertInto_of_notMem {present : List Document} {document : Document}
    (hfresh : document.uri ∉ present.map (·.uri)) :
    insertInto document present = present ++ [document] := by
  induction present with
  | nil => rfl
  | cons other rest ih =>
    rw [List.map_cons, List.mem_cons, not_or] at hfresh
    have hother : ¬other.uri = document.uri := fun heq ↦ hfresh.1 heq.symm
    rw [insertInto, if_neg hother, ih hfresh.2, List.cons_append]

theorem mem_insertInto {present : List Document} {document found : Document}
    (h : found ∈ insertInto document present) : found = document ∨ found ∈ present := by
  induction present with
  | nil => exact .inl (List.mem_singleton.1 h)
  | cons other rest ih =>
    rw [insertInto] at h
    split at h
    · exact (List.mem_cons.1 h).imp_right (List.mem_cons_of_mem other)
    · obtain rfl | hrest := List.mem_cons.1 h
      · exact .inr List.mem_cons_self
      · exact (ih hrest).imp_right (List.mem_cons_of_mem other)

theorem nodup_insertInto {present : List Document} (h : (present.map (·.uri)).Nodup)
    (document : Document) : ((insertInto document present).map (·.uri)).Nodup := by
  induction present with
  | nil => exact List.nodup_singleton document.uri
  | cons other rest ih =>
    rw [insertInto]
    split
    · rename_i hsame
      rwa [List.map_cons, ← hsame]
    · rename_i hother
      rw [List.map_cons, List.nodup_cons] at h ⊢
      refine ⟨fun hmem ↦ ?_, ih h.2⟩
      obtain ⟨found, hfound, huri⟩ := List.mem_map.1 hmem
      obtain rfl | hrest := mem_insertInto hfound
      · exact hother huri.symm
      · exact h.1 (List.mem_map.2 ⟨found, hrest, huri⟩)

/-- The documents of a library are told apart by their URIs. -/
theorem nodup_uris_ofList (documents : List Document) :
    ((ofList documents).documents.map (·.uri)).Nodup := by
  have hinserts : ∀ (others : List Document) (library : Library),
      (library.documents.map (·.uri)).Nodup →
        ((others.foldl insert library).documents.map (·.uri)).Nodup := by
    intro others
    induction others with
    | nil => exact fun _ h ↦ h
    | cons document rest ih => exact fun library h ↦ ih _ (nodup_insertInto h document)
  exact hinserts documents {} List.nodup_nil

theorem documents_foldl_insert {present others : List Document}
    (hnodup : ((present ++ others).map (·.uri)).Nodup) :
    (others.foldl insert ⟨present⟩).documents = present ++ others := by
  induction others generalizing present with
  | nil => simp
  | cons document rest ih =>
    have hfresh : document.uri ∉ present.map (·.uri) := by
      rw [List.map_append, List.nodup_append] at hnodup
      intro hmem
      exact hnodup.2.2 _ hmem _ List.mem_cons_self rfl
    rw [List.foldl_cons, insert, insertInto_of_notMem hfresh]
    rw [List.append_cons] at hnodup
    rw [ih hnodup, ← List.append_cons]

/-- Documents with distinct URIs are all there, in the order in which they came in. -/
theorem documents_ofList {documents : List Document}
    (h : (documents.map (·.uri)).Nodup) : (ofList documents).documents = documents :=
  documents_foldl_insert (by simpa using h)

variable {left right : Library}

theorem resolve_congr (h : left.get? = right.get?) : left.resolve = right.resolve := by
  funext current reference path
  simp only [resolve, owner?, h]

end Library

/-! ### Claims -/

namespace Registry

variable {left right : Library}

theorem finalTitle?_congr (h : left.get? = right.get?) : finalTitle? left = finalTitle? right := by
  funext place hops owner node title
  induction hops generalizing owner node title with
  | zero => rfl
  | succ hops ih => simp only [finalTitle?, Library.resolve_congr h, ih]

theorem definitionClaims_congr (h : left.get? = right.get?) :
    definitionClaims left = definitionClaims right := by
  funext document
  simp only [definitionClaims, definitionClaim?, arrayLabel?, finalTitle?_congr h]

theorem claim_congr (h : left.get? = right.get?) (registry : Registry) :
    registry.claim left = registry.claim right := by
  funext document path kind stem
  simp only [claim, reserveDefinitions, definitionClaims_congr h]

end Registry

/-! ### Mapping -/

section Mapping

variable {left right : Library}

theorem Request.claim_congr (h : left.get? = right.get?) (request : Request) :
    request.claim left = request.claim right := by
  funext document kind label
  simp only [Request.claim, Mapping.claim, Registry.claim_congr h]

theorem Flatten.collect_congr (h : left.get? = right.get?) : collect left = collect right := by
  funext budget
  induction budget with
  | zero => rfl
  | succ budget ih =>
    funext document path node
    simp only [collect, Flatten.step, Library.resolve_congr h, ih]

theorem mergeAllOf_congr (h : left.get? = right.get?) : mergeAllOf left = mergeAllOf right := by
  funext budget document outer members path
  simp only [mergeAllOf, Flatten.collect_congr h]

theorem Native.step_congr (h : left.get? = right.get?) (runtime : Runtime) :
    Native.step ⟨left, runtime⟩ = Native.step ⟨right, runtime⟩ := by
  funext merge map document node request
  simp only [Native.step, Native.reference, Native.constant, Native.enumeration, Native.array,
    Native.objectLike, Native.object, Native.dictionary, Library.resolve_congr h,
    Request.claim_congr h]
  rfl

theorem Wire.step_congr (h : left.get? = right.get?) (runtime : Runtime) :
    Wire.step ⟨left, runtime⟩ = Wire.step ⟨right, runtime⟩ := by
  funext merge map document node request
  simp only [Wire.step, Wire.reference, Wire.constant, Wire.enumeration, Wire.array,
    Wire.objectLike, Wire.object, Wire.dictionary, Library.resolve_congr h,
    Request.claim_congr h]

theorem Native.map_congr (h : left.get? = right.get?) (runtime : Runtime) :
    Native.map ⟨left, runtime⟩ = Native.map ⟨right, runtime⟩ := by
  funext budget
  induction budget with
  | zero => rfl
  | succ budget ih =>
    funext document node request
    simp only [Native.map, Native.step_congr h, mergeAllOf_congr h, ih]

theorem Wire.map_congr (h : left.get? = right.get?) (runtime : Runtime) :
    Wire.map ⟨left, runtime⟩ = Wire.map ⟨right, runtime⟩ := by
  funext budget
  induction budget with
  | zero => rfl
  | succ budget ih =>
    funext document node request
    simp only [Wire.map, Wire.step_congr h, mergeAllOf_congr h, ih]

theorem Mappers.ofBudget_congr (h : left.get? = right.get?) (runtime : Runtime) (budget : Nat) :
    Mappers.ofBudget ⟨left, runtime⟩ budget = Mappers.ofBudget ⟨right, runtime⟩ budget := by
  simp only [Mappers.ofBudget, Native.map_congr h, Wire.map_congr h]

end Mapping

/-! ### Kept definitions -/

namespace Keep

variable {library : Library} {document : Document} {name : String}

/-- A definition that another document refers to, directly or by way of other definitions. -/
inductive Needed (library : Library) (document : Document) : String → Prop
  | outside {other : Document} {reference name : String} {node : Node}
      (hother : other ∈ library.documents) (huri : other.uri ≠ document.uri)
      (hreference : reference ∈ other.references)
      (h : definition? document false reference = some (name, node)) :
      Needed library document name
  | inside {user name : String} (huser : Needed library document user)
      (h : name ∈ successors document user) : Needed library document name

theorem needed_of_mem_seeds (h : name ∈ seeds library document) :
    Needed library document name := by
  obtain ⟨reference, hreference, node, hname⟩ := mem_named.1 h
  obtain ⟨schema, hschema, hmem⟩ := List.mem_flatMap.1 hreference
  obtain ⟨other, hother, hdeclared⟩ := List.mem_flatMap.1 hschema
  obtain ⟨hdocument, huri⟩ := List.mem_filter.1 hother
  exact .outside hdocument (by simpa using huri)
    (List.mem_flatMap.2 ⟨schema, hdeclared, hmem⟩) hname

/-- A round brings in needed definitions only. -/
theorem needed_of_mem_grow {rounds : Nat} {kept : List String}
    (h : ∀ name ∈ kept, Needed library document name) :
    ∀ name ∈ grow document rounds kept, Needed library document name := by
  induction rounds generalizing kept with
  | zero => exact h
  | succ rounds ih =>
    have hnext : ∀ name ∈ addAllNew kept (kept.flatMap (successors document)),
        Needed library document name := by
      intro name hname
      obtain hold | hnew := mem_addAllNew.1 hname
      · exact h name hold
      · obtain ⟨user, huser, hsuccessor⟩ := List.mem_flatMap.1 hnew
        exact .inside (h user huser) hsuccessor
    unfold grow
    dsimp only
    split
    · exact h
    · exact ih hnext

/-- The search finds what is needed, in whatever order it goes. -/
theorem mem_keptDefinitions_iff :
    name ∈ keptDefinitions library document ↔ Needed library document name := by
  constructor
  · intro hname
    apply needed_of_mem_grow _ name hname
    intro seed hseed
    exact needed_of_mem_seeds ((mem_addAllNew.1 hseed).resolve_left nofun)
  · intro hneeded
    induction hneeded with
    | outside hother huri hreference h => exact mem_keptDefinitions hother huri hreference h
    | inside huser h ih => exact (keptDefinitions_closed library document).2 _ ih h

theorem Needed.congr {left right : Library}
    (h : ∀ other, other ∈ left.documents ↔ other ∈ right.documents)
    (hneeded : Needed left document name) : Needed right document name := by
  induction hneeded with
  | outside hother huri hreference hname =>
    exact .outside ((h _).1 hother) huri hreference hname
  | inside huser hname ih => exact .inside ih hname

end Keep

/-! ### Generation -/

namespace Generate

variable {left right : Library}

theorem standalone_congr (h : left.SameDocuments right) :
    standalone left = standalone right := by
  funext settings document
  have hkept : (keptDefinitions left document).contains =
      (keptDefinitions right document).contains := by
    funext name
    rw [Bool.eq_iff_iff, List.contains_iff_mem, List.contains_iff_mem, mem_keptDefinitions_iff,
      mem_keptDefinitions_iff]
    exact ⟨Needed.congr h.mem, Needed.congr fun other ↦ (h.mem other).symm⟩
  simp only [standalone, hkept]

theorem documentOutput_congr (h : left.SameDocuments right) (mappers : Mappers) :
    documentOutput mappers left = documentOutput mappers right := by
  funext settings document
  simp only [documentOutput, emitDocument, standalone_congr h]

end Generate

namespace Library

variable {left right : Library} {accepts : Document → Bool} {settings : Settings}

theorem runOf_congr (h : left.SameDocuments right) :
    left.runOf accepts settings = right.runOf accepts settings := by
  funext document
  simp only [runOf, generateDocument, Mappers.ofBudget_congr h.get,
    Generate.documentOutput_congr h]

theorem generate_eq_some {library : Library} {runs : Document → DocumentRun}
    (h : ∀ document ∈ library.documents,
      library.runOf accepts settings document = some (runs document)) :
    library.generate accepts settings = some ⟨library.documents.map runs⟩ := by
  have hruns : ∀ documents : List Document,
      (∀ document ∈ documents, library.runOf accepts settings document = some (runs document)) →
      documents.mapM (library.runOf accepts settings) = some (documents.map runs) := by
    intro documents hall
    induction documents with
    | nil => rfl
    | cons document rest ih =>
      obtain ⟨hfirst, hrest⟩ := List.forall_mem_cons.1 hall
      simp [List.mapM_cons, hfirst, ih hrest]
  exact Option.map_eq_some_iff.2 ⟨_, hruns library.documents h, rfl⟩

/-- One document that exhausts the budget is enough for the run to have no result. -/
theorem generate_eq_none {library : Library} {document : Document}
    (hmem : document ∈ library.documents)
    (h : library.runOf accepts settings document = none) :
    library.generate accepts settings = none := by
  have hruns : ∀ documents : List Document, document ∈ documents →
      documents.mapM (library.runOf accepts settings) = none := by
    intro documents hin
    induction documents with
    | nil => exact absurd hin List.not_mem_nil
    | cons first rest ih =>
      rw [List.mapM_cons]
      by_cases hfirst : document = first
      · simp [← hfirst, h]
      · have hrest := ih ((List.mem_cons.1 hin).resolve_left hfirst)
        simp [hrest]
  exact Option.map_eq_none_iff.2 (hruns library.documents hmem)

variable {documents reordered : List Document}

/-- Documents with distinct URIs are generated alike in every order. Each has one run, with its
status, diagnostics and files, in both libraries, and a generation lists these runs in the order
of the documents. -/
theorem generation_does_not_depend_on_order (hperm : documents.Perm reordered)
    (hdistinct : (documents.map (·.uri)).Nodup) (accepts : Document → Bool)
    (settings : Settings) :
    (∀ document, (ofList documents).runOf accepts settings document =
      (ofList reordered).runOf accepts settings document) ∧
    ((∃ runs : Document → DocumentRun,
        (ofList documents).generate accepts settings = some ⟨documents.map runs⟩ ∧
        (ofList reordered).generate accepts settings = some ⟨reordered.map runs⟩) ∨
      ((ofList documents).generate accepts settings = none ∧
        (ofList reordered).generate accepts settings = none)) := by
  have hdistinct' : (reordered.map (·.uri)).Nodup := (hperm.map _).nodup_iff.1 hdistinct
  have hleft : (ofList documents).documents = documents := documents_ofList hdistinct
  have hright : (ofList reordered).documents = reordered := documents_ofList hdistinct'
  have hsame : SameDocuments (ofList documents) (ofList reordered) := by
    apply sameDocuments_of_perm
    · rw [hleft, hright]
      exact hperm
    · rw [hleft]
      exact hdistinct
  have hrun : ∀ document, (ofList documents).runOf accepts settings document =
      (ofList reordered).runOf accepts settings document :=
    fun document ↦ congrFun (runOf_congr hsame) document
  refine ⟨hrun, ?_⟩
  by_cases hends : ∀ document ∈ documents,
      ((ofList documents).runOf accepts settings document).isSome
  · left
    let runs : Document → DocumentRun := fun document ↦
      ((ofList documents).runOf accepts settings document).getD ⟨document.title, .skipped, none, 0⟩
    have hruns : ∀ document ∈ documents,
        (ofList documents).runOf accepts settings document = some (runs document) := by
      intro document hmem
      obtain ⟨run, hfound⟩ := Option.isSome_iff_exists.1 (hends document hmem)
      simp [runs, hfound]
    have hruns' : ∀ document ∈ reordered,
        (ofList reordered).runOf accepts settings document = some (runs document) := by
      intro document hmem
      rw [← hrun document]
      exact hruns document (hperm.mem_iff.2 hmem)
    have hgenerated := @generate_eq_some accepts settings (ofList documents) runs
    have hgenerated' := @generate_eq_some accepts settings (ofList reordered) runs
    rw [hleft] at hgenerated
    rw [hright] at hgenerated'
    exact ⟨runs, hgenerated hruns, hgenerated' hruns'⟩
  · right
    push Not at hends
    obtain ⟨document, hmem, hnone⟩ := hends
    have hexhausted : (ofList documents).runOf accepts settings document = none := by
      simpa using hnone
    constructor
    · exact generate_eq_none (hleft.symm ▸ hmem) hexhausted
    · exact generate_eq_none (hright.symm ▸ hperm.mem_iff.1 hmem) (hrun document ▸ hexhausted)

end Library

namespace SharedTypes

/-- An API that returns a value of a type of another document. -/
def apiContent (title definition : String) : Json :=
  .object [("$id", .string title), ("title", .string title), ("methods", .array [.object [
    ("name", .string "get"), ("params", .array []), ("result", .object [
      ("name", .string "value"),
      ("schema", .object [("$ref", .string ("Types#/definitions/" ++ definition))])])]])]

/-- Two types, one of which refers to a third. -/
def typesContent : Json := .object [("$id", .string "Types"), ("title", .string "Types"),
  ("definitions", .object [
    ("Mode", .object [("type", .string "string"), ("enum", .array [.string "on"])]),
    ("Lamp", .object [("type", .string "object"), ("properties", .object [
      ("level", .object [("$ref", .string "#/definitions/Level")])])]),
    ("Level", .object [("type", .string "string"), ("enum", .array [.string "low"])]),
    ("Unused", .object [("type", .string "string"), ("enum", .array [.string "none"])])])]

theorem isSome_read_modes : (Document.read (apiContent "Modes" "Mode")).toOption.isSome := by
  decide +kernel

theorem isSome_read_lamps : (Document.read (apiContent "Lamps" "Lamp")).toOption.isSome := by
  decide +kernel

theorem isSome_read_types : (Document.read typesContent).toOption.isSome := by
  decide +kernel

def modes : Document := (Document.read (apiContent "Modes" "Mode")).toOption.get isSome_read_modes

def lamps : Document := (Document.read (apiContent "Lamps" "Lamp")).toOption.get isSome_read_lamps

def types : Document := (Document.read typesContent).toOption.get isSome_read_types

/-- The search for kept definitions starts in the order of the documents. -/
example :
    keptDefinitions (.ofList [modes, lamps, types]) types = ["Mode", "Lamp", "Level"] ∧
      keptDefinitions (.ofList [lamps, types, modes]) types = ["Lamp", "Mode", "Level"] :=
  ⟨by decide +kernel, by decide +kernel⟩

/-- The types are generated without the unused one in either order, alike in both. -/
theorem types_in_any_order :
    ((Library.ofList [modes, lamps, types]).generate (fun _ ↦ true)
      { pruneUnused := true }).isSome ∧
    ∃ runs : Document → DocumentRun,
      (Library.ofList [modes, lamps, types]).generate (fun _ ↦ true) { pruneUnused := true } =
        some ⟨[modes, lamps, types].map runs⟩ ∧
      (Library.ofList [lamps, types, modes]).generate (fun _ ↦ true) { pruneUnused := true } =
        some ⟨[lamps, types, modes].map runs⟩ := by
  have hperm : [modes, lamps, types].Perm [lamps, types, modes] :=
    @List.perm_append_comm _ [modes] [lamps, types]
  have hends : ((Library.ofList [modes, lamps, types]).generate (fun _ ↦ true)
      { pruneUnused := true }).isSome := by
    decide +kernel
  have hsame := Library.generation_does_not_depend_on_order hperm (by decide +kernel)
    (fun _ ↦ true) { pruneUnused := true }
  refine ⟨hends, hsame.2.resolve_right ?_⟩
  rintro ⟨hnone, -⟩
  rw [hnone] at hends
  cases hends

end SharedTypes

end SchemaBindings
