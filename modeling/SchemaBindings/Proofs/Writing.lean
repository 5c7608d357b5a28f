import SchemaBindings.Command.Folder
import SchemaBindings.Command.Run
import SchemaBindings.Proofs.Paths

/-!
# Writing generated files

What stands in a folder after files were written to it one after the other. A file is written to
the place that its path leads to, and is there until something else is written to that place.
Paths with a step that leads up, or none at all, can lead to the place of another path; the paths
of generated files have such a step only if a title has a slash.
-/

namespace SchemaBindings

open Text

namespace Folder

/-! ### Places and addresses -/

/-- Where a path below a root leads to, in the spelling under which a folder keeps its files. -/
def address (root path : String) : String :=
  ofSteps ((steps (Files.join root path)).foldl enter [])

/-- Whether a path goes down one directory with each of its steps. -/
def GoesDown (path : String) : Prop :=
  ∀ step ∈ steps path, step ≠ "" ∧ step ≠ "." ∧ step ≠ ".."

instance (path : String) : Decidable (GoesDown path) :=
  inferInstanceAs (Decidable (∀ step ∈ steps path, step ≠ "" ∧ step ≠ "." ∧ step ≠ ".."))

theorem splitChars_append (separator : Char) (left right : List Char) :
    splitChars separator (left ++ separator :: right) =
      splitChars separator left ++ splitChars separator right := by
  induction left with
  | nil => simp [splitChars]
  | cons c rest ih =>
    by_cases hc : c = separator
    · simp [splitChars, hc, ih]
    · have hne := splitChars_ne_nil separator rest
      obtain ⟨part, parts, hparts⟩ := List.exists_cons_of_ne_nil hne
      simp [splitChars, hc, ih, hparts]

theorem splitChars_of_notMem {separator : Char} {text : List Char} (h : separator ∉ text) :
    splitChars separator text = [text] := by
  induction text with
  | nil => rfl
  | cons c rest ih =>
    rw [List.mem_cons, not_or] at h
    simp [splitChars, Ne.symm h.1, ih h.2]

theorem steps_append (left right : String) :
    steps (left ++ "/" ++ right) = steps left ++ steps right := by
  simp [steps, split, splitChars_append]

theorem steps_of_notMem {path : String} (h : '/' ∉ path.toList) : steps path = [path] := by
  simp [steps, split, splitChars_of_notMem h]

theorem ofSteps_steps (path : String) : ofSteps (steps path) = path := by
  apply String.toList_injective
  rw [ofSteps, String.toList_intercalate, steps, split, List.map_map]
  simpa using intercalate_splitChars '/' path.toList

theorem foldl_enter_of_goesDown {found : List String}
    (h : ∀ step ∈ found, step ≠ "" ∧ step ≠ "." ∧ step ≠ "..") (place : List String) :
    found.foldl enter place = place ++ found := by
  induction found generalizing place with
  | nil => simp
  | cons step rest ih =>
    obtain ⟨hne, hdot, hup⟩ := h step List.mem_cons_self
    have henter : enter place step = place ++ [step] := by
      simp [enter, hne, hdot, hup]
    rw [List.foldl_cons, henter, ih fun other hother ↦ h other (List.mem_cons_of_mem _ hother),
      List.append_assoc, List.singleton_append]

/-- A path that goes down is appended to the place of the root. -/
theorem place_join (root : String) {path : String} (h : GoesDown path) :
    (steps (Files.join root path)).foldl enter [] =
      (steps root).foldl enter [] ++ steps path := by
  unfold Files.join
  split
  · rename_i hslash
    have hmem : "" ∈ steps path := by
      simp [steps, split, hslash, splitChars]
    exact absurd rfl (h "" hmem).1
  · rename_i hlast _
    obtain ⟨start, hstart⟩ := List.getLast?_eq_some_iff.1 hlast
    have hroot : root = String.ofList start ++ "/" := by
      apply String.toList_injective
      simpa using hstart
    have hidle : (steps root).foldl enter [] = (steps (String.ofList start)).foldl enter [] := by
      have hempty : steps root = steps (String.ofList start ++ "/" ++ "") := by simp [hroot]
      rw [hempty, steps_append, List.foldl_append]
      simp [steps, split, splitChars, enter]
    rw [hidle, hroot, steps_append, List.foldl_append, foldl_enter_of_goesDown h]
  · rename_i hlast _
    have hroot : root = "" := String.toList_eq_nil_iff.1 (List.getLast?_eq_none_iff.1 hlast)
    subst hroot
    rw [foldl_enter_of_goesDown h]
    rfl
  · rw [steps_append, List.foldl_append, foldl_enter_of_goesDown h]

/-- Different paths that go down lead to different places. -/
theorem address_injective {root left right : String} (hleft : GoesDown left)
    (hright : GoesDown right) (h : address root left = address root right) : left = right := by
  have hne : ∀ path, steps path ≠ [] := fun path ↦ by
    simp [steps, split, splitChars_ne_nil]
  unfold address at h
  rw [place_join root hleft, place_join root hright] at h
  by_cases hroot : (steps root).foldl enter [] = []
  · rw [hroot, List.nil_append, List.nil_append, ofSteps_steps, ofSteps_steps] at h
    exact h
  · unfold ofSteps at h
    rw [String.intercalate_append_of_ne_nil hroot (hne left),
      String.intercalate_append_of_ne_nil hroot (hne right)] at h
    rw [← ofSteps_steps left, ← ofSteps_steps right]
    exact (String.append_right_inj _).1 h

/-! ### Growing folders -/

/-- A folder in which there are still all the directories of another one. -/
def Grows (folder folder' : Folder) : Prop :=
  ∀ place, folder.hasDirectory place → folder'.hasDirectory place

variable {folder folder' : Folder} {path text root : String}

theorem Grows.trans {folder'' : Folder} (h : folder.Grows folder') (h' : folder'.Grows folder'') :
    folder.Grows folder'' :=
  fun place hplace ↦ h' place (h place hplace)

theorem walk?_eq_some {found place : List String} {way : List String}
    (h : folder.walk? place way = some found) : found = way.foldl enter place := by
  induction way generalizing place with
  | nil =>
    cases h
    rfl
  | cons step rest ih =>
    rw [walk?] at h
    split at h
    · exact ih h
    · cases h

theorem Grows.walk? (hgrows : folder.Grows folder') {found place way : List String}
    (h : folder.walk? place way = some found) : folder'.walk? place way = some found := by
  induction way generalizing place with
  | nil => exact h
  | cons step rest ih =>
    rw [Folder.walk?] at h ⊢
    split at h
    · rename_i hstep
      rw [Bool.and_eq_true] at hstep
      rw [hgrows place hstep.1, hstep.2]
      exact ih h
    · cases h

theorem Grows.place? (hgrows : folder.Grows folder') {place : List String}
    (h : folder.place? path = some place) : folder'.place? path = some place := by
  unfold Folder.place? at h ⊢
  split at h
  · rename_i hpath
    rw [if_pos hpath]
    exact hgrows.walk? h
  · cases h

theorem grows_put (place text : String) :
    folder.Grows { folder with files := Table.put place text folder.files } := by
  intro found hfound
  unfold hasDirectory at hfound ⊢
  rw [Bool.or_eq_true, List.any_eq_true] at hfound ⊢
  refine hfound.imp_right fun ⟨file, hmem, hbelow⟩ ↦ ?_
  have hkey : file.1 ∈ Table.keys (Table.put place text folder.files) := by
    rw [Table.keys_put]
    have hold : file.1 ∈ Table.keys folder.files := List.mem_map_of_mem hmem
    split
    · exact hold
    · exact List.mem_append_left _ hold
  obtain ⟨file', hmem', hfile'⟩ := List.mem_map.1 hkey
  exact ⟨file', hmem', hfile' ▸ hbelow⟩

theorem grows_addDirectory (directory : String) :
    folder.Grows { folder with directories := folder.directories ++ [directory] } := by
  intro found hfound
  simp only [hasDirectory, List.any_append, Bool.or_eq_true] at hfound ⊢
  tauto

theorem grows_make? {place way : List String} (h : folder.make? place way = some folder') :
    folder.Grows folder' ∧ folder'.files = folder.files := by
  induction way generalizing folder place with
  | nil =>
    cases h
    exact ⟨fun _ ↦ id, rfl⟩
  | cons step rest ih =>
    unfold make? at h
    dsimp only at h
    split at h
    · cases h
    · split at h
      · exact ih h
      · split at h
        · cases h
        · obtain ⟨hgrows, hfiles⟩ := ih h
          exact ⟨(grows_addDirectory _).trans hgrows, hfiles⟩

/-! ### What stands at a path -/

/-- Whether a path can be walked and leads to a file with a text. -/
def Holds (folder : Folder) (path text : String) : Prop :=
  ∃ place, folder.place? path = some place ∧
    Table.get? (ofSteps place) folder.files = some text

theorem place?_eq_some {place : List String} (h : folder.place? path = some place) :
    place = (steps path).foldl enter [] := by
  unfold Folder.place? at h
  split at h
  · exact walk?_eq_some h
  · cases h

theorem read?_of_holds (h : folder.Holds path text) :
    (host.read? path).run folder = (some text, folder) := by
  obtain ⟨place, hplace, hget⟩ := h
  have hnull : path ≠ nullDevice := by
    rintro rfl
    cases hplace
  show (if path = nullDevice then some "" else _, folder) = _
  rw [if_neg hnull, hplace]
  exact congrArg (·, folder) hget

/-- The directories that lead to a path, if they can be made. -/
def made? (folder : Folder) (path : String) : Option Folder :=
  if isPath path then folder.make? [] (steps path) else none

theorem run_makeDirectory (folder : Folder) (path : String) :
    (host.makeDirectory path).run folder =
      pure ((folder.made? path).isSome, (folder.made? path).getD folder) := by
  cases h : folder.made? path with
  | none =>
    unfold made? at h
    simp [host, h]
  | some made =>
    unfold made? at h
    simp [host, h]

theorem run_write (folder : Folder) (path text : String) :
    (host.write path text).run folder =
      match folder.place? path with
      | some place =>
        if folder.hasDirectory place then pure (false, folder)
        else pure (true, { folder with files := Table.put (ofSteps place) text folder.files })
      | none => pure (false, folder) := by
  cases h : folder.place? path with
  | none => simp [host, h]
  | some place => by_cases hdirectory : folder.hasDirectory place <;> simp [host, h, hdirectory]

/-- Writing a file makes the directories that lead to it, and puts it where no directory is. -/
theorem run_writeFile_eq_ok {file : GeneratedFile}
    (h : (Command.writeFile host root file).run.run folder = pure (.ok (), folder')) :
    ∃ made place, folder.made? (Command.parentOf (Files.join root file.path)) = some made ∧
      made.place? (Files.join root file.path) = some place ∧
      folder' = { made with files := Table.put (ofSteps place) file.contents made.files } := by
  unfold Command.writeFile at h
  cases hmade : folder.made? (Command.parentOf (Files.join root file.path)) with
  | none =>
    simp only [ExceptT.run_bind, ExceptT.run_lift, StateT.run_bind, StateT.run_map,
      run_makeDirectory, hmade] at h
    cases h
  | some made =>
    simp only [ExceptT.bind_throw, ExceptT.run_bind, ExceptT.run_lift, bind_map_left,
      StateT.run_bind, run_makeDirectory, hmade, Option.isSome_some, Option.getD_some, pure_bind,
      if_pos, run_write] at h
    cases hplace : made.place? (Files.join root file.path) with
    | none =>
      simp only [hplace] at h
      cases h
    | some place =>
      simp only [hplace] at h
      split at h
      · cases h
      · cases h
        exact ⟨made, place, rfl, hplace, rfl⟩

/-- A file that was written stands at its path, and nothing is lost but what stood there. -/
theorem writeFile_keeps {file : GeneratedFile}
    (h : (Command.writeFile host root file).run.run folder = pure (.ok (), folder')) :
    folder.Grows folder' ∧ folder'.Holds (Files.join root file.path) file.contents ∧
      ∀ place, place ≠ address root file.path →
        Table.get? place folder'.files = Table.get? place folder.files := by
  obtain ⟨made, place, hmade, hplace, rfl⟩ := run_writeFile_eq_ok h
  have hgrows : folder.Grows made ∧ made.files = folder.files := by
    unfold made? at hmade
    split at hmade
    · exact grows_make? hmade
    · cases hmade
  have hput : made.Grows
      { made with files := Table.put (ofSteps place) file.contents made.files } :=
    grows_put (ofSteps place) file.contents
  refine ⟨hgrows.1.trans hput, ⟨place, hput.place? hplace, Table.get?_put_self _ _ _⟩, ?_⟩
  intro other hother
  rw [place?_eq_some hplace, ← hgrows.2]
  exact Table.get?_put_of_ne hother _ _

theorem run_bind_eq_ok {α β : Type} {first : Command.Job (StateM Folder) α}
    {next : α → Command.Job (StateM Folder) β} {value : β}
    (h : (first >>= next).run.run folder = pure (.ok value, folder')) :
    ∃ found middle, first.run.run folder = pure (.ok found, middle) ∧
      (next found).run.run middle = pure (.ok value, folder') := by
  rw [ExceptT.run_bind, StateT.run_bind] at h
  generalize first.run.run folder = ending at h ⊢
  obtain ⟨reason | found, middle⟩ := ending
  · cases h
  · exact ⟨found, middle, rfl, h⟩

/-- Files that are written in order all stand at their paths in the end, if they have different
paths that go down. -/
theorem forM_writeFile_keeps {files : List GeneratedFile}
    (hdown : ∀ file ∈ files, GoesDown file.path) (hnodup : (files.map (·.path)).Nodup)
    (h : (files.forM (Command.writeFile host root)).run.run folder = pure (.ok (), folder')) :
    folder.Grows folder' ∧
      (∀ file ∈ files, folder'.Holds (Files.join root file.path) file.contents) ∧
      ∀ place, (∀ file ∈ files, place ≠ address root file.path) →
        Table.get? place folder'.files = Table.get? place folder.files := by
  induction files generalizing folder with
  | nil =>
    cases h
    exact ⟨fun _ ↦ id, by simp, fun _ _ ↦ rfl⟩
  | cons file rest ih =>
    rw [List.map_cons, List.nodup_cons] at hnodup
    obtain ⟨_, middle, hfirst, hrest⟩ := run_bind_eq_ok h
    have hdowns : ∀ other ∈ rest, GoesDown other.path := fun other hother ↦
      hdown other (List.mem_cons_of_mem _ hother)
    obtain ⟨hgrows, ⟨place, hplace, hget⟩, hkeeps⟩ := writeFile_keeps hfirst
    obtain ⟨hgrows', hholds', hkeeps'⟩ := ih hdowns hnodup.2 hrest
    have hapart : ∀ other ∈ rest, address root file.path ≠ address root other.path := by
      intro other hother haddress
      have hpath := address_injective (hdown file List.mem_cons_self) (hdowns other hother)
        haddress
      exact hnodup.1 (hpath ▸ List.mem_map_of_mem hother)
    have hfile : folder'.Holds (Files.join root file.path) file.contents := by
      refine ⟨place, hgrows'.place? hplace, ?_⟩
      rw [place?_eq_some hplace] at hget ⊢
      exact (hkeeps' _ hapart).trans hget
    refine ⟨hgrows.trans hgrows', ?_, ?_⟩
    · intro other hother
      obtain rfl | hother := List.mem_cons.1 hother
      · exact hfile
      · exact hholds' other hother
    · intro other hother
      rw [hkeeps' other fun file' hmem ↦ hother file' (List.mem_cons_of_mem _ hmem)]
      exact hkeeps other (hother file List.mem_cons_self)

/-! ### Paths of generated files -/

theorem goesDown_append {left right : String} (hleft : GoesDown left) (hright : GoesDown right) :
    GoesDown (left ++ "/" ++ right) := by
  intro step hstep
  rw [steps_append, List.mem_append] at hstep
  exact hstep.elim (hleft step) (hright step)

/-- A single step with an ending that is no dot goes down. -/
theorem goesDown_of_ending {start ending : String} {c : Char} (hstart : '/' ∉ start.toList)
    (hending : '/' ∉ ending.toList) (hlast : ending.toList.getLast? = some c) (hc : c ≠ '.') :
    GoesDown (start ++ ending) := by
  have hmem : '/' ∉ (start ++ ending).toList := by
    simp [hstart, hending]
  have hends : (start ++ ending).toList.getLast? = some c := by
    simp [List.getLast?_append, hlast]
  intro step hstep
  rw [steps_of_notMem hmem, List.mem_singleton] at hstep
  rw [← hstep] at hends
  refine ⟨?_, ?_, ?_⟩ <;> rintro rfl <;> simp at hends
  · exact hc hends.symm
  · exact hc hends.symm

theorem goesDown_join {directory name : String} (hdirectory : GoesDown directory)
    (hlast : directory.toList.getLast? ≠ some '/') (hname : GoesDown name) :
    GoesDown (Files.join directory name) := by
  have hne : directory ≠ "" := by
    rintro rfl
    exact (hdirectory "" (by decide)).1 rfl
  have hstart : ¬name.toList.head? = some '/' := by
    intro hslash
    obtain ⟨rest, hrest⟩ := List.head?_eq_some_iff.1 hslash
    have hmem : "" ∈ steps name := by
      simp [steps, split, hrest, splitChars]
    exact (hname "" hmem).1 rfl
  have hjoin : Files.join directory name = directory ++ "/" ++ name := by
    apply String.toList_injective
    rw [Files.join_toList hne hlast, if_neg hstart]
    simp
  rw [hjoin]
  exact goesDown_append hdirectory hname

theorem goesDown_paths {document : Document} (htitle : '/' ∉ (capitalize document.title).toList)
    (hasContainers : Bool) {path : String} (hpath : path ∈ Files.paths document hasContainers) :
    GoesDown path := by
  have hheader : GoesDown (capitalize document.title ++ ".h") :=
    goesDown_of_ending htitle (by decide) (c := 'h') (by decide) (by decide)
  have hnative : GoesDown (Files.nativeHeaderName document.title document.family) := by
    cases document.family with
    | api => exact hheader
    | schema =>
      rw [Files.nativeHeaderName, String.append_assoc]
      exact @goesDown_append "Common" _ (by decide) hheader
  have hwireHeader : GoesDown (Files.wireHeaderName document.title) :=
    goesDown_of_ending (by simp [htitle]) (by decide) (c := 'h') (by decide) (by decide)
  have hcode : GoesDown (Files.implementationName document.title document.family) := by
    cases document.family with
    | api => exact goesDown_of_ending htitle (by decide) (c := 'p') (by decide) (by decide)
    | schema => exact goesDown_of_ending htitle (by decide) (c := 'p') (by decide) (by decide)
  rw [Files.paths, List.mem_cons, List.mem_append, List.mem_singleton] at hpath
  obtain rfl | hwire | rfl := hpath
  · exact goesDown_join (by decide) (by decide) hnative
  · split at hwire
    · rw [List.mem_singleton.1 hwire]
      exact goesDown_join (by decide) (by decide) hwireHeader
    · cases hwire
  · exact goesDown_join (by decide) (by decide) hcode

end Folder

/-! ### Files of a run -/

section

variable {library : Library} {accepts : Document → Bool} {settings : Settings}
  {generation : Generation}

theorem goesDown_of_generate (h : library.generate accepts settings = some generation)
    (htitles : ∀ artifacts ∈ generation.artifacts, '/' ∉ (capitalize artifacts.title).toList)
    {file : GeneratedFile} (hfile : file ∈ generation.files) : Folder.GoesDown file.path := by
  obtain ⟨artifacts, hartifacts, hmem⟩ := List.mem_flatMap.1 hfile
  have htitle := htitles artifacts hartifacts
  rw [Library.artifacts_of_generate h] at hartifacts
  obtain ⟨⟨document, _⟩, hgenerated, rfl⟩ := List.mem_map.1 hartifacts
  obtain ⟨-, -, output, -, -, rfl⟩ := Library.mem_generated_iff.1 hgenerated
  have hpath := List.mem_map_of_mem (f := (·.path)) hmem
  rw [Files.assemble_paths] at hpath
  exact Folder.goesDown_paths htitle _ hpath

/-- The files of a run have different paths exactly if no two of the generated documents clash:
if no two of one family have the same capitalised title, nor two with containers, and no API has
the title of a schema document behind `Common/` or before `_Common`. Then, if no title has a
slash, each file is still there as it was generated when all were written in order. -/
theorem files_stay_unless_titles_clash (h : library.generate accepts settings = some generation) :
    ((generation.files.map (·.path)).Nodup ↔
      (library.generated accepts settings).Pairwise fun left right ↦
        ¬Library.Clash left right) ∧
    ((library.generated accepts settings).Pairwise (fun left right ↦ ¬Library.Clash left right) →
      (∀ artifacts ∈ generation.artifacts, '/' ∉ (capitalize artifacts.title).toList) →
      ∀ root folder folder',
        (generation.files.forM (Command.writeFile Folder.host root)).run.run folder =
          (.ok (), folder') →
        ∀ file ∈ generation.files,
          (Folder.host.read? (Files.join root file.path)).run folder' =
            (some file.contents, folder')) := by
  have hnodup := Library.nodup_paths_iff h
  refine ⟨hnodup, fun hclash htitles root folder folder' hwritten file hfile ↦ ?_⟩
  obtain ⟨-, hholds, -⟩ := Folder.forM_writeFile_keeps
    (fun file hfile ↦ goesDown_of_generate h htitles hfile) (hnodup.2 hclash) hwritten
  exact Folder.read?_of_holds (hholds file hfile)

end

namespace SameTitle

/-- A schema document with an object. -/
def typesContent : Json := .object [("$id", .string "T"), ("title", .string "A"),
  ("definitions", .object [("X", .object [("type", .string "object"), ("properties", .object [
    ("p", .object [("type", .string "integer")])])])])]

/-- An API of the same title with an object of its own. -/
def apiContent : Json := .object [("$id", .string "A"), ("title", .string "A"),
  ("methods", .array []), ("components", .object [("schemas", .object [
    ("Y", .object [("type", .string "object"), ("properties", .object [
      ("q", .object [("type", .string "boolean")])])])])])]

/-- An API of the same title that needs no containers. -/
def plainContent : Json := .object [("$id", .string "A"), ("title", .string "A"),
  ("methods", .array [.object [("name", .string "get"), ("params", .array []),
    ("result", .object [("name", .string "v"),
      ("schema", .object [("type", .string "integer")])])]])]

theorem isSome_read_types : (Document.read typesContent).toOption.isSome := by decide +kernel

theorem isSome_read_api : (Document.read apiContent).toOption.isSome := by decide +kernel

theorem isSome_read_plain : (Document.read plainContent).toOption.isSome := by decide +kernel

def types : Document := (Document.read typesContent).toOption.get isSome_read_types

def api : Document := (Document.read apiContent).toOption.get isSome_read_api

def plain : Document := (Document.read plainContent).toOption.get isSome_read_plain

def settings : Settings := { pruneUnused := false }

def generate? (api : Document) : Option Generation :=
  Library.generate ⟨[types, api]⟩ (fun _ ↦ true) settings

/-- Writing the files of a run to an empty folder. -/
def written (generation : Generation) : Except String Unit × Folder :=
  (generation.files.forM (Command.writeFile Folder.host "out")).run.run {}

theorem exists_folder_of_isOk {ending : Except String Unit × Folder} (h : ending.1.isOk = true) :
    ∃ folder, ending = (.ok (), folder) := by
  obtain ⟨_ | _, folder⟩ := ending
  · cases h
  · exact ⟨folder, rfl⟩

theorem generated_plain : (generate? plain).any (fun generation ↦
    generation.files.map (·.path) == ["include/Common/A.h", "src/JsonData_A.h",
      "src/A_Common.cpp", "include/A.h", "src/A.cpp"] &&
    generation.artifacts.all (fun artifacts ↦ artifacts.title == "A") &&
    (written generation).1.isOk) = true := by
  decide +kernel

theorem apart_plain : (Library.generated ⟨[types, plain]⟩ (fun _ ↦ true) settings).Pairwise
    fun left right ↦ ¬Library.Clash left right := by
  decide +kernel

/-- With an API that has no containers all files stay. -/
theorem plain_files_stay : ∃ generation folder,
    generate? plain = some generation ∧
    generation.files.map (·.path) = ["include/Common/A.h", "src/JsonData_A.h",
      "src/A_Common.cpp", "include/A.h", "src/A.cpp"] ∧
    (generation.files.map (·.path)).Nodup ∧
    written generation = (.ok (), folder) ∧
    ∀ file ∈ generation.files,
      (Folder.host.read? (Files.join "out" file.path)).run folder =
        (some file.contents, folder) := by
  obtain ⟨generation, hgenerate, hchecks⟩ := Option.any_eq_true _ _ |>.1 generated_plain
  obtain ⟨hfirst, hok⟩ := Bool.and_eq_true_iff.1 hchecks
  obtain ⟨hpaths, htitles⟩ := Bool.and_eq_true_iff.1 hfirst
  obtain ⟨hnodup, hstay⟩ := files_stay_unless_titles_clash hgenerate
  obtain ⟨folder, hwritten⟩ := exists_folder_of_isOk hok
  refine ⟨generation, folder, hgenerate, beq_iff_eq.1 hpaths, hnodup.2 apart_plain, hwritten, ?_⟩
  have htitle : ∀ artifacts ∈ generation.artifacts,
      '/' ∉ (capitalize artifacts.title).toList := by
    intro artifacts hmem
    have hA : artifacts.title = "A" := beq_iff_eq.1 (List.all_eq_true.1 htitles artifacts hmem)
    rw [hA]
    decide
  exact hstay apart_plain htitle "out" {} folder hwritten

/-- With an API that has containers, there is one path for two headers. -/
theorem wire_headers_meet : (generate? api).map (fun generation ↦
    generation.files.map (·.path)) =
    some ["include/Common/A.h", "src/JsonData_A.h", "src/A_Common.cpp",
      "include/A.h", "src/JsonData_A.h", "src/A.cpp"] := by
  decide +kernel

end SameTitle

end SchemaBindings
