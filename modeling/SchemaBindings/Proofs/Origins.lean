import SchemaBindings.Proofs.Symbols
import SchemaBindings.Proofs.Writing

/-!
# Origins of paths

A schema stands under a definition, a parameter or a result, and the steps that lead to it from
there are written in its path. The path determines all of this, together with the title of the
document: titles and names may hold slashes and number signs, but behind the title no part that
ends in a number sign is followed by one of the words that an origin starts with.
-/

namespace SchemaBindings

open Text

/-- From a schema to one that is a part of it. -/
inductive Step where
  | item
  | value
  | property (name : String)

/-- Under which pointer the definitions of a document stand. -/
inductive DefinitionsRoot where
  | definitions
  | components

/-- What a schema is a part of. The step to a definition may be written in more than one way. -/
inductive Origin where
  | definition (root : DefinitionsRoot) (written : String) (h : '/' ∉ written.toList)
  | param (method position : Nat)
  | result (method : Nat)

/-- The place of a part of the schema at `path`. -/
def Step.under (step : Step) (path : String) : String :=
  match step with
  | item => Pointer.child path "items"
  | value => Pointer.child path "additionalProperties"
  | property name => Pointer.child (Pointer.child path "properties") name

def DefinitionsRoot.pointer : DefinitionsRoot → String
  | definitions => "#/definitions"
  | components => "#/components/schemas"

namespace Origin

def path (title : String) : Origin → String
  | definition root written _ => title ++ root.pointer ++ "/" ++ written
  | param method position => s!"{title}#/methods/{method}/params/{position}/schema"
  | result method => s!"{title}#/methods/{method}/result/schema"

/-- The place that some steps lead to, the last one first. -/
def place (title : String) (origin : Origin) (steps : List Step) : String :=
  steps.foldr Step.under (origin.path title)

end Origin

/-! ## Parts of paths -/

namespace Pointer

theorem escapeChar_eq (c : Char) :
    (c = '~' ∧ escapeChar c = ['~', '0']) ∨ (c = '/' ∧ escapeChar c = ['~', '1']) ∨
      (c ≠ '~' ∧ c ≠ '/' ∧ escapeChar c = [c]) := by
  unfold escapeChar
  split
  · exact .inl ⟨‹_›, rfl⟩
  · split
    · exact .inr (.inl ⟨‹_›, rfl⟩)
    · exact .inr (.inr ⟨‹_›, ‹_›, rfl⟩)

theorem slash_notMem_escapeStep (step : List Char) : '/' ∉ escapeStep step := by
  intro h
  obtain ⟨c, -, hmem⟩ := List.mem_flatMap.1 h
  obtain ⟨-, hc⟩ | ⟨-, hc⟩ | ⟨-, hne, hc⟩ := escapeChar_eq c
  · simp [hc] at hmem
  · simp [hc] at hmem
  · rw [hc, List.mem_singleton] at hmem
    exact hne hmem.symm

theorem replacePair_cons_of_ne {first second : Char} {replacement : List Char} {c : Char}
    (h : c ≠ first) (rest : List Char) : Text.replacePair first second replacement (c :: rest) =
      c :: Text.replacePair first second replacement rest := by
  cases rest with
  | nil => rfl
  | cons d rest => exact if_neg fun heq ↦ h heq.1

/-- A step is what its written form stands for. -/
theorem unescapeStep_escapeStep (step : List Char) : unescapeStep (escapeStep step) = step := by
  -- the first pass leaves a step in which only tildes are escaped
  let escapeTilde : Char → List Char := fun c ↦ if c = '~' then ['~', '0'] else [c]
  have hslashes : Text.replacePair '~' '1' ['/'] (escapeStep step) =
      step.flatMap escapeTilde := by
    induction step with
    | nil => rfl
    | cons c rest ih =>
      rw [List.flatMap_cons, ← ih]
      change Text.replacePair '~' '1' ['/'] (escapeChar c ++ escapeStep rest) = _
      obtain ⟨rfl, hc⟩ | ⟨rfl, hc⟩ | ⟨hc, -, heq⟩ := escapeChar_eq c
      · rw [hc]
        change '~' :: Text.replacePair '~' '1' ['/'] ('0' :: escapeStep rest) = _
        rw [replacePair_cons_of_ne (by decide)]
        rfl
      · rw [hc]
        rfl
      · rw [heq]
        simp only [escapeTilde, if_neg hc]
        exact replacePair_cons_of_ne hc _
  have htildes : Text.replacePair '~' '0' ['~'] (step.flatMap escapeTilde) = step := by
    clear hslashes
    induction step with
    | nil => rfl
    | cons c rest ih =>
      rw [List.flatMap_cons]
      by_cases hc : c = '~'
      · subst hc
        exact congrArg ('~' :: ·) ih
      · simp only [escapeTilde, if_neg hc]
        exact (replacePair_cons_of_ne hc _).trans (congrArg (c :: ·) ih)
  rw [unescapeStep, hslashes, htildes]

theorem escapeStep_injective : Function.Injective escapeStep :=
  Function.LeftInverse.injective unescapeStep_escapeStep

theorem child_right_injective (path : String) : Function.Injective (child path) := by
  intro step step' h
  have hchars := congrArg String.toList h
  simp only [child, String.toList_append, String.toList_ofList, List.append_cancel_left_eq]
    at hchars
  exact String.toList_injective (escapeStep_injective hchars)

end Pointer

/-- Parts of a path, each behind a slash. -/
def slashed (parts : List (List Char)) : List Char := parts.flatMap ('/' :: ·)

theorem slashed_append (first second : List (List Char)) :
    slashed (first ++ second) = slashed first ++ slashed second :=
  List.flatMap_append

theorem splitChars_slashed (text : List Char) {parts : List (List Char)}
    (h : ∀ part ∈ parts, '/' ∉ part) :
    splitChars '/' (text ++ slashed parts) = splitChars '/' text ++ parts := by
  induction parts generalizing text with
  | nil => simp [slashed]
  | cons part rest ih =>
    obtain ⟨hpart, hrest⟩ := List.forall_mem_cons.1 h
    have hslashed : slashed (part :: rest) = '/' :: (part ++ slashed rest) := rfl
    rw [hslashed, Folder.splitChars_append, ih part hrest, Folder.splitChars_of_notMem hpart]
    simp

namespace Step

def parts : Step → List (List Char)
  | item => ["items".toList]
  | value => ["additionalProperties".toList]
  | property name => ["properties".toList, Pointer.escapeStep name.toList]

theorem toList_under (step : Step) (path : String) :
    (step.under path).toList = path.toList ++ slashed step.parts := by
  cases step <;> simp [under, parts, slashed, Pointer.child, Pointer.escapeStep, Pointer.escapeChar]

theorem slash_notMem_parts (step : Step) : ∀ part ∈ step.parts, '/' ∉ part := by
  cases step with
  | property name => simp [parts, Pointer.slash_notMem_escapeStep]
  | _ => simp [parts]

/-- The steps of a path can be told from its parts. -/
theorem flatMap_parts_injective :
    Function.Injective fun steps : List Step ↦ steps.flatMap parts := by
  intro steps steps' h
  induction steps generalizing steps' with
  | nil =>
    cases steps' with
    | nil => rfl
    | cons step rest => cases step <;> simp [parts] at h
  | cons step rest ih =>
    cases steps' with
    | nil => cases step <;> simp [parts] at h
    | cons step' rest' =>
      cases step <;> cases step' <;> simp [parts] at h
      · rw [ih h]
      · rw [ih h]
      · obtain ⟨hname, hrest⟩ := h
        rw [ih hrest, String.toList_injective (Pointer.escapeStep_injective hname)]

end Step

namespace Origin

def parts : Origin → List (List Char)
  | definition .definitions written _ => ["definitions".toList, written.toList]
  | definition .components written _ =>
    ["components".toList, "schemas".toList, written.toList]
  | param method position => ["methods".toList, (toString method).toList, "params".toList,
      (toString position).toList, "schema".toList]
  | result method =>
    ["methods".toList, (toString method).toList, "result".toList, "schema".toList]

theorem toList_path (title : String) (origin : Origin) :
    (origin.path title).toList = title.toList ++ '#' :: slashed origin.parts := by
  have htext : ∀ text : String, toString text = text := fun _ ↦ rfl
  cases origin with
  | definition root written h => cases root <;> simp [path, parts, slashed, DefinitionsRoot.pointer]
  | param method position => simp [path, parts, slashed, htext]
  | result method => simp [path, parts, slashed, htext]

theorem slash_notMem_toString (n : Nat) : '/' ∉ (toString n).toList := by
  intro h
  have hdigit : '/' ∈ Nat.toDigits 10 n := by simpa using h
  exact absurd (Nat.isDigit_of_mem_toDigits (by decide) (by decide) hdigit) (by decide)

theorem slash_notMem_parts (origin : Origin) : ∀ part ∈ origin.parts, '/' ∉ part := by
  cases origin with
  | definition root written h => cases root <;> simp [parts, h]
  | param method position => simp only [parts, List.forall_mem_cons, slash_notMem_toString]; simp
  | result method => simp only [parts, List.forall_mem_cons, slash_notMem_toString]; simp

/-- The words that origins start with. -/
def heads : List (List Char) := ["definitions".toList, "components".toList, "methods".toList]

/-- A part that ends in a number sign is not followed by the first word of an origin. -/
def Follows (part next : List Char) : Prop := part.getLast? = some '#' → next ∉ heads

theorem exists_head (origin : Origin) : ∃ word ∈ heads, origin.parts.head? = some word := by
  cases origin with
  | definition root written h => cases root <;> exact ⟨_, by simp [heads], rfl⟩
  | param method position => exact ⟨_, by simp [heads], rfl⟩
  | result method => exact ⟨_, by simp [heads], rfl⟩

theorem head_steps_notMem (steps : List Step) :
    ∀ word ∈ (steps.flatMap Step.parts).head?, word ∉ heads := by
  cases steps with
  | nil => simp
  | cons step rest => cases step <;> simp [Step.parts, heads]

theorem isChain_steps (steps : List Step) : List.IsChain Follows (steps.flatMap Step.parts) := by
  induction steps with
  | nil => exact .nil
  | cons step rest ih =>
    rw [List.flatMap_cons, List.isChain_append]
    refine ⟨?_, ih, fun _ _ word hword _ ↦ head_steps_notMem rest word hword⟩
    cases step <;> simp [Step.parts, Follows]

theorem isChain_parts (origin : Origin) : List.IsChain Follows origin.parts := by
  cases origin with
  | definition root written h => cases root <;> simp [parts, Follows]
  | param method position => simp [parts, Follows, heads]
  | result method => simp [parts, Follows, heads]

/-- The parts of a path behind the title. -/
def partsTo (origin : Origin) (steps : List Step) : List (List Char) :=
  origin.parts ++ steps.reverse.flatMap Step.parts

theorem isChain_partsTo (origin : Origin) (steps : List Step) :
    List.IsChain Follows (origin.partsTo steps) :=
  List.isChain_append.2 ⟨origin.isChain_parts, isChain_steps _,
    fun _ _ word hword _ ↦ head_steps_notMem _ word hword⟩

theorem exists_head_partsTo (origin : Origin) (steps : List Step) :
    ∃ word ∈ heads, (origin.partsTo steps).head? = some word := by
  obtain ⟨word, hword, hhead⟩ := origin.exists_head
  exact ⟨word, hword, by rw [partsTo, List.head?_append, hhead, Option.some_or]⟩

theorem slash_notMem_partsTo (origin : Origin) (steps : List Step) :
    ∀ part ∈ origin.partsTo steps, '/' ∉ part := by
  intro part hpart
  obtain hpart | hpart := List.mem_append.1 hpart
  · exact origin.slash_notMem_parts part hpart
  · obtain ⟨step, -, hstep⟩ := List.mem_flatMap.1 hpart
    exact step.slash_notMem_parts part hstep

theorem toList_place (title : String) (origin : Origin) (steps : List Step) :
    (origin.place title steps).toList = title.toList ++ '#' :: slashed (origin.partsTo steps) := by
  induction steps with
  | nil => simpa [place, partsTo] using origin.toList_path title
  | cons step rest ih =>
    have hparts : origin.partsTo (step :: rest) = origin.partsTo rest ++ step.parts := by
      simp [partsTo]
    rw [place, List.foldr_cons, Step.toList_under, ← place, ih, hparts, slashed_append]
    simp

/-- Origin and steps can be told from the parts. -/
theorem partsTo_injective {origin origin' : Origin} {steps steps' : List Step}
    (h : origin.partsTo steps = origin'.partsTo steps') : origin = origin' ∧ steps = steps' := by
  unfold partsTo at h
  have hsame : origin = origin' ∧
      steps.reverse.flatMap Step.parts = steps'.reverse.flatMap Step.parts := by
    cases origin with
    | definition root written _ =>
      cases origin' with
      | definition root' written' _ =>
        cases root <;> cases root' <;>
          simp only [parts, List.cons_append, List.cons.injEq, String.toList_inj] at h <;>
          simp_all
      | _ => cases root <;> simp [parts] at h
    | param method position =>
      cases origin' with
      | definition root' written' _ => cases root' <;> simp [parts] at h
      | param method' position' =>
        simp only [parts, List.cons_append, List.cons.injEq, String.toList_inj] at h
        obtain ⟨-, hmethod, -, hposition, -, hsteps⟩ := h
        exact ⟨by rw [Names.toString_injective hmethod, Names.toString_injective hposition], hsteps⟩
      | result method' => simp [parts] at h
    | result method =>
      cases origin' with
      | definition root' written' _ => cases root' <;> simp [parts] at h
      | param method' position' => simp [parts] at h
      | result method' =>
        simp only [parts, List.cons_append, List.cons.injEq, String.toList_inj] at h
        obtain ⟨-, hmethod, -, -, hsteps⟩ := h
        exact ⟨by rw [Names.toString_injective hmethod], hsteps⟩
  exact ⟨hsame.1, List.reverse_injective (Step.flatMap_parts_injective hsame.2)⟩

/-- The last part of a title ends in the number sign that follows the title. -/
theorem splitChars_title (title : List Char) : ∃ before last,
    splitChars '/' (title ++ ['#']) = before ++ [last] ∧ last.getLast? = some '#' := by
  induction title with
  | nil => exact ⟨[], ['#'], rfl, rfl⟩
  | cons c rest ih =>
    obtain ⟨before, last, hsplit, hlast⟩ := ih
    by_cases hc : c = '/'
    · exact ⟨[] :: before, last, by simp [splitChars, hc, hsplit], hlast⟩
    · cases before with
      | nil =>
        refine ⟨[], c :: last, by simp [splitChars, hc, hsplit], ?_⟩
        rw [List.getLast?_cons, hlast, Option.getD_some]
      | cons part others =>
        exact ⟨(c :: part) :: others, last, by simp [splitChars, hc, hsplit], hlast⟩

/-- A title does not reach into the parts of a path. -/
theorem not_overlaps {first before more rest : List (List Char)} {last : List Char}
    (hlast : last.getLast? = some '#') (hchain : List.IsChain Follows (more ++ rest))
    (hrest : ∃ word ∈ heads, rest.head? = some word) (h : before ++ [last] = first ++ more) :
    more = [] := by
  by_contra hne
  obtain ⟨word, hword, hhead⟩ := hrest
  have hmore : more.getLast? = some last := by
    have heq := congrArg List.getLast? h
    rw [List.getLast?_append_of_ne_nil _ hne] at heq
    simpa using heq.symm
  exact (List.isChain_append.1 hchain).2.2 last hmore word hhead hlast hword

/-- A path determines the title of the document, the origin of the schema, and the steps that
lead to it from there. -/
theorem place_injective {title title' : String} {origin origin' : Origin}
    {steps steps' : List Step} (h : origin.place title steps = origin'.place title' steps') :
    title = title' ∧ origin = origin' ∧ steps = steps' := by
  have hchars : (title.toList ++ ['#']) ++ slashed (origin.partsTo steps) =
      (title'.toList ++ ['#']) ++ slashed (origin'.partsTo steps') := by
    simpa [toList_place] using congrArg String.toList h
  have hsplit := congrArg (splitChars '/') hchars
  rw [splitChars_slashed _ (origin.slash_notMem_partsTo steps),
    splitChars_slashed _ (origin'.slash_notMem_partsTo steps')] at hsplit
  obtain ⟨before, last, htitle, hlast⟩ := splitChars_title title.toList
  obtain ⟨before', last', htitle', hlast'⟩ := splitChars_title title'.toList
  have hparts : origin.partsTo steps = origin'.partsTo steps' := by
    obtain ⟨more, hlonger, hrest⟩ | ⟨more, hlonger, hrest⟩ := List.append_eq_append_iff.1 hsplit
    · have hend : before' ++ [last'] = (before ++ [last]) ++ more := by
        rw [← htitle', hlonger, htitle]
      have hnone := not_overlaps hlast' (hrest ▸ origin.isChain_partsTo steps)
        (origin'.exists_head_partsTo steps') hend
      rw [hrest, hnone, List.nil_append]
    · have hend : before ++ [last] = (before' ++ [last']) ++ more := by
        rw [← htitle, hlonger, htitle']
      have hnone := not_overlaps hlast (hrest ▸ origin'.isChain_partsTo steps')
        (origin.exists_head_partsTo steps) hend
      rw [hrest, hnone, List.nil_append]
  obtain ⟨horigin, hsteps⟩ := partsTo_injective hparts
  rw [hparts, List.append_cancel_right_eq, List.append_cancel_right_eq] at hchars
  exact ⟨String.toList_injective hchars, horigin, hsteps⟩

end Origin

end SchemaBindings
