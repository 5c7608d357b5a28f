import Mathlib.Data.List.Nodup
import SchemaBindings.Output.Generate

/-!
# Paths of generated files

Where the files of a run are put. The paths are made from the titles of the documents and from
their families, while a library tells its documents apart by their URIs. Headers of APIs and of
schema documents, and their implementations, are kept in different places or get different
endings. Headers of containers are not, and an ending can be a part of another title.
-/

namespace SchemaBindings

open Text

namespace Files

/-! ### Names below a directory -/

theorem join_toList {directory : String} (hne : directory ≠ "")
    (hlast : directory.toList.getLast? ≠ some '/') (name : String) :
    (join directory name).toList =
      if name.toList.head? = some '/' then name.toList
      else directory.toList ++ '/' :: name.toList := by
  unfold join
  cases hname : name.toList.head? with
  | none =>
    have hnil : name.toList = [] := List.head?_eq_none_iff.1 hname
    cases hd : directory.toList.getLast? with
    | none => exact absurd (by simpa using hd) hne
    | some c =>
      have hc : c ≠ '/' := fun h ↦ hlast (h ▸ hd)
      rw [hnil]
      split <;> simp_all
  | some c =>
    obtain ⟨rest, hrest⟩ := List.head?_eq_some_iff.1 hname
    cases hd : directory.toList.getLast? with
    | none => exact absurd (by simpa using hd) hne
    | some last =>
      have hc : last ≠ '/' := fun h ↦ hlast (h ▸ hd)
      rw [hrest]
      split <;> simp_all

theorem join_injective {directory : String} (hne : directory ≠ "")
    (hlast : directory.toList.getLast? ≠ some '/')
    (hfirst : directory.toList.head? ≠ some '/') : (join directory).Injective := by
  intro left right h
  have hchars := congrArg String.toList h
  rw [join_toList hne hlast, join_toList hne hlast] at hchars
  have hcons : ∀ name : String,
      (directory.toList ++ '/' :: name.toList).head? = directory.toList.head? := by
    intro name
    cases hd : directory.toList with
    | nil => exact absurd (String.toList_eq_nil_iff.1 hd) hne
    | cons c rest => rfl
  apply String.toList_injective
  split at hchars <;> split at hchars
  · exact hchars
  · rename_i hleft _
    rw [hchars, hcons] at hleft
    exact absurd hleft hfirst
  · rename_i hright
    rw [← hchars, hcons] at hright
    exact absurd hright hfirst
  · simpa using hchars

theorem join_include_injective : (join "include").Injective :=
  join_injective (by decide) (by decide) (by decide)

theorem join_src_injective : (join "src").Injective :=
  join_injective (by decide) (by decide) (by decide)

/-- The ending of a path is the ending of the name. -/
theorem getLast?_join {directory : String} (hne : directory ≠ "")
    (hlast : directory.toList.getLast? ≠ some '/') {name : String} (hname : name ≠ "") :
    (join directory name).toList.getLast? = name.toList.getLast? := by
  rw [join_toList hne hlast]
  split
  · rfl
  · cases hn : name.toList with
    | nil => exact absurd (String.toList_eq_nil_iff.1 hn) hname
    | cons c rest =>
      obtain ⟨last, hlast'⟩ := Option.isSome_iff_exists.1
        (List.getLast?_isSome.2 (List.cons_ne_nil c rest))
      rw [List.getLast?_append, List.getLast?_cons_cons, hlast']
      rfl

/-- A file of declarations and one of definitions have different endings. -/
theorem header_ne_implementation {directory directory' : String} (hne : directory ≠ "")
    (hlast : directory.toList.getLast? ≠ some '/') (hne' : directory' ≠ "")
    (hlast' : directory'.toList.getLast? ≠ some '/') (left right : String) :
    join directory (left ++ ".h") ≠ join directory' (right ++ ".cpp") := by
  intro h
  have hends := congrArg (·.toList.getLast?) h
  rw [getLast?_join hne hlast (by simp), getLast?_join hne' hlast' (by simp)] at hends
  simp at hends

/-- Headers of types and headers of containers are put in different directories. -/
theorem nativeHeader_ne_wireHeader (name title : String) :
    join "include" name ≠ join "src" (wireHeaderName title) := by
  intro h
  have hstarts := congrArg (·.toList.head?) h
  rw [join_toList (by decide) (by decide), join_toList (by decide) (by decide)] at hstarts
  have hwire : (wireHeaderName title).toList.head? = some 'J' := by
    simp [wireHeaderName]
  have hsrc : ¬(wireHeaderName title).toList.head? = some '/' := by
    rw [hwire]
    decide
  rw [if_neg hsrc] at hstarts
  split at hstarts
  · rename_i hslash
    rw [hslash] at hstarts
    cases hstarts
  · cases hstarts

/-! ### Paths of one document -/

/-- Paths of the files of a document, which has containers or not. -/
def paths (document : Document) (hasContainers : Bool) : List String :=
  join "include" (nativeHeaderName document.title document.family) ::
    ((if hasContainers then [join "src" (wireHeaderName document.title)] else []) ++
      [join "src" (implementationName document.title document.family)])

theorem assemble_paths (runtime : Runtime) (headerText : Option String) (document : Document)
    (output : Output) :
    (assemble runtime headerText document output).files.map (·.path) =
      paths document (assemble runtime headerText document output).wireHeader.isSome := by
  simp only [assemble, Artifacts.files, paths]
  split <;> rfl

theorem exists_nativeHeaderName_eq (title : String) (family : Family) :
    ∃ name, nativeHeaderName title family = name ++ ".h" := by
  cases family
  · exact ⟨_, rfl⟩
  · exact ⟨_, rfl⟩

theorem exists_implementationName_eq (title : String) (family : Family) :
    ∃ name, implementationName title family = name ++ ".cpp" := by
  cases family
  · exact ⟨capitalize title ++ "_Common", by
      rw [String.append_assoc, show "_Common" ++ ".cpp" = "_Common.cpp" from rfl]
      rfl⟩
  · exact ⟨_, rfl⟩

theorem nativeHeader_ne_implementation (left right : Document) :
    join "include" (nativeHeaderName left.title left.family) ≠
      join "src" (implementationName right.title right.family) := by
  obtain ⟨header, hheader⟩ := exists_nativeHeaderName_eq left.title left.family
  obtain ⟨code, hcode⟩ := exists_implementationName_eq right.title right.family
  rw [hheader, hcode]
  exact header_ne_implementation (by decide) (by decide) (by decide) (by decide) _ _

theorem wireHeader_ne_implementation (title : String) (right : Document) :
    join "src" (wireHeaderName title) ≠
      join "src" (implementationName right.title right.family) := by
  obtain ⟨code, hcode⟩ := exists_implementationName_eq right.title right.family
  rw [hcode]
  exact header_ne_implementation (by decide) (by decide) (by decide) (by decide) _ _

theorem nodup_paths (document : Document) (hasContainers : Bool) :
    (paths document hasContainers).Nodup := by
  have hwire := nativeHeader_ne_wireHeader
    (nativeHeaderName document.title document.family) document.title
  have hcode := nativeHeader_ne_implementation document document
  have hwirecode := wireHeader_ne_implementation document.title document
  cases hasContainers <;> simp [paths, hwire, hcode, hwirecode]

/-! ### Paths of two documents -/

/-- Whether an API has the title under which files of a schema document are put. -/
def Crosses (api schema : Document) : Prop :=
  api.family = .api ∧ schema.family = .schema ∧
    (capitalize api.title = "Common/" ++ capitalize schema.title ∨
      capitalize api.title = capitalize schema.title ++ "_Common")

/-- Whether two documents are given a file at the same path. -/
def Clash (left : Document) (leftHas : Bool) (right : Document) (rightHas : Bool) : Prop :=
  (capitalize left.title = capitalize right.title ∧
    (left.family = right.family ∨ leftHas = true ∧ rightHas = true)) ∨
  Crosses left right ∨ Crosses right left

instance (left right : Document) : Decidable (Crosses left right) :=
  inferInstanceAs (Decidable (_ ∧ _ ∧ (_ ∨ _)))

instance (left right : Document) (leftHas rightHas : Bool) :
    Decidable (Clash left leftHas right rightHas) :=
  inferInstanceAs (Decidable ((_ ∧ (_ ∨ _ ∧ _)) ∨ _ ∨ _))

variable {left right : Document}

theorem header_or_implementation_eq_iff :
    nativeHeaderName left.title left.family = nativeHeaderName right.title right.family ∨
      implementationName left.title left.family = implementationName right.title right.family ↔
    (capitalize left.title = capitalize right.title ∧ left.family = right.family) ∨
      Crosses left right ∨ Crosses right left := by
  have hending : ∀ name name' : String,
      name ++ ".cpp" = name' ++ "_Common.cpp" ↔ name = name' ++ "_Common" := by
    intro name name'
    rw [show "_Common.cpp" = "_Common" ++ ".cpp" from rfl, ← String.append_assoc,
      String.append_left_inj]
  cases hl : left.family <;> cases hr : right.family <;>
    simp only [nativeHeaderName, implementationName, Crosses, hl, hr]
  · simp
  · rw [eq_comm (b := capitalize right.title ++ ".cpp"), hending,
      String.append_left_inj, eq_comm (b := capitalize right.title)]
    simp
  · rw [hending]
    simp
  · simp

theorem wireHeaderName_eq_iff {left right : String} :
    wireHeaderName left = wireHeaderName right ↔ capitalize left = capitalize right := by
  simp [wireHeaderName]

/-- Two documents have a path in common if it is the path of the same kind of file. -/
theorem disjoint_paths {leftHas rightHas : Bool} :
    (paths left leftHas).Disjoint (paths right rightHas) ↔
      ¬((nativeHeaderName left.title left.family = nativeHeaderName right.title right.family ∨
          implementationName left.title left.family =
            implementationName right.title right.family) ∨
        (wireHeaderName left.title = wireHeaderName right.title ∧
          leftHas = true ∧ rightHas = true)) := by
  have hnatives := nativeHeader_ne_wireHeader
    (nativeHeaderName left.title left.family) right.title
  have hnatives' := nativeHeader_ne_wireHeader
    (nativeHeaderName right.title right.family) left.title
  have hcodes := nativeHeader_ne_implementation left right
  have hcodes' := nativeHeader_ne_implementation right left
  have hwires := wireHeader_ne_implementation left.title right
  have hwires' := wireHeader_ne_implementation right.title left
  rw [← join_include_injective.eq_iff (a := nativeHeaderName left.title left.family),
    ← join_src_injective.eq_iff (a := implementationName left.title left.family),
    ← join_src_injective.eq_iff (a := wireHeaderName left.title)]
  unfold paths
  generalize join "include" (nativeHeaderName left.title left.family) = header at *
  generalize join "include" (nativeHeaderName right.title right.family) = header' at *
  generalize join "src" (wireHeaderName left.title) = wire at *
  generalize join "src" (wireHeaderName right.title) = wire' at *
  generalize join "src" (implementationName left.title left.family) = code at *
  generalize join "src" (implementationName right.title right.family) = code' at *
  cases leftHas <;> cases rightHas <;> simp [List.disjoint_cons_right] <;> grind

theorem disjoint_paths_iff {leftHas rightHas : Bool} :
    (paths left leftHas).Disjoint (paths right rightHas) ↔
      ¬Clash left leftHas right rightHas := by
  rw [disjoint_paths, header_or_implementation_eq_iff, wireHeaderName_eq_iff]
  unfold Clash
  tauto

end Files

/-! ### Paths of a run -/

/-- All files of a run, in the order in which they are written. -/
def Generation.files (generation : Generation) : List GeneratedFile :=
  generation.artifacts.flatMap Artifacts.files

namespace Library

variable {library : Library} {accepts : Document → Bool} {settings : Settings}
  {generation : Generation}

/-- What comes of a document in a run. -/
def runOf (library : Library) (accepts : Document → Bool) (settings : Settings)
    (document : Document) : Option DocumentRun :=
  if accepts document then library.generateDocument settings document
  else some ⟨document.title, .skipped, none, 0⟩

/-- The documents that are generated in a run, each with its files. -/
def generated (library : Library) (accepts : Document → Bool) (settings : Settings) :
    List (Document × Artifacts) :=
  library.documents.filterMap fun document ↦
    ((library.runOf accepts settings document).bind (·.generated)).map fun result ↦
      (document, result.artifacts)

theorem artifacts_of_generate (h : library.generate accepts settings = some generation) :
    generation.artifacts = (library.generated accepts settings).map (·.2) := by
  obtain ⟨runs, hruns, rfl⟩ := Option.map_eq_some_iff.1 h
  replace hruns : library.documents.mapM (library.runOf accepts settings) = some runs := hruns
  clear h
  unfold Generation.artifacts generated
  generalize library.documents = documents at hruns
  induction documents generalizing runs with
  | nil =>
    cases hruns
    rfl
  | cons document rest ih =>
    rw [List.mapM_cons] at hruns
    obtain ⟨run, hrun, hruns⟩ := Option.bind_eq_some_iff.1 hruns
    obtain ⟨others, hothers, hruns⟩ := Option.bind_eq_some_iff.1 hruns
    cases hruns
    cases hgenerated : run.generated with
    | none => simpa [hrun, hgenerated] using ih others hothers
    | some result => simpa [hrun, hgenerated] using ih others hothers

/-- A document is generated if there is an output for it, and its files are assembled from that. -/
theorem mem_generated_iff {document : Document} {artifacts : Artifacts} :
    (document, artifacts) ∈ library.generated accepts settings ↔
      document ∈ library.documents ∧ accepts document = true ∧ ∃ output session,
        Generate.documentOutput (.ofBudget ⟨library, settings.runtime⟩ Generate.budget) library
          settings document {} = some (.ok output, session) ∧
        artifacts = Files.assemble settings.runtime settings.headerText document output := by
  unfold generated runOf generateDocument
  simp only [List.mem_filterMap, Option.map_eq_some_iff, Option.bind_eq_some_iff]
  constructor
  · rintro ⟨found, hfound, result, ⟨run, hrun, hresult⟩, hpair⟩
    cases hpair
    split at hrun
    · rename_i haccepts
      split at hrun
      · cases hrun
      · cases hrun
        cases hresult
        exact ⟨hfound, haccepts, _, _, ‹_›, rfl⟩
      · cases hrun
        cases hresult
    · cases hrun
      cases hresult
  · rintro ⟨hdocument, haccepts, output, session, hrun, rfl⟩
    refine ⟨document, hdocument,
      ⟨Files.assemble settings.runtime settings.headerText document output, output.diagnostics⟩,
      ⟨⟨document.title, .generated, some ⟨_, output.diagnostics⟩, session.warnings⟩, ?_, rfl⟩, rfl⟩
    have hrun' : (Generate.documentOutput (.ofBudget ⟨library, settings.runtime⟩ Generate.budget)
        library settings document).run {} = some (.ok output, session) := hrun
    rw [if_pos haccepts, hrun']

/-- Whether two generated documents have a file at the same path. -/
def Clash (left right : Document × Artifacts) : Prop :=
  Files.Clash left.1 left.2.wireHeader.isSome right.1 right.2.wireHeader.isSome

instance (left right : Document × Artifacts) : Decidable (Clash left right) :=
  inferInstanceAs (Decidable (Files.Clash _ _ _ _))

theorem nodup_paths_iff (h : library.generate accepts settings = some generation) :
    (generation.files.map (·.path)).Nodup ↔
      (library.generated accepts settings).Pairwise fun left right ↦ ¬Clash left right := by
  have hpaths : ∀ entry ∈ library.generated accepts settings,
      entry.2.files.map (·.path) = Files.paths entry.1 entry.2.wireHeader.isSome := by
    rintro ⟨document, artifacts⟩ hmem
    obtain ⟨-, -, output, -, -, rfl⟩ := mem_generated_iff.1 hmem
    exact Files.assemble_paths _ _ _ _
  rw [Generation.files, artifacts_of_generate h, List.flatMap_map, List.map_flatMap,
    List.nodup_flatMap]
  have hown : ∀ entry ∈ library.generated accepts settings,
      (entry.2.files.map (·.path)).Nodup := by
    intro entry hmem
    rw [hpaths entry hmem]
    exact Files.nodup_paths _ _
  rw [and_iff_right hown]
  refine List.Pairwise.iff_of_mem fun {left right} hleft hright ↦ ?_
  change (left.2.files.map (·.path)).Disjoint (right.2.files.map (·.path)) ↔ _
  rw [hpaths left hleft, hpaths right hright]
  exact Files.disjoint_paths_iff

end Library

end SchemaBindings
