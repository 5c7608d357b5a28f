import SchemaBindings.Proofs.Accessors

/-!
# Names in a header

The header of a document declares types with their accessors, and the functions and callbacks of
its methods. Only names of one kind are kept apart by the sections that they stand in. Across the
kinds it is underscores that tell names apart: those of types have one more than the title of the
document, those of accessors at least two more, and of the names of a method whose own name has
none, only those that register a callback have two more.
-/

namespace SchemaBindings

open Code Mapping

/-! ## Names of methods -/

namespace MethodPlace

/-- Names of the functions that the header may declare for the method. -/
def functionNames (m : MethodPlace) : List String := [
  m.moduleName ++ "_" ++ m.methodName,
  m.moduleName ++ "_Get" ++ m.methodName,
  m.moduleName ++ "_Set" ++ m.methodName,
  m.moduleName ++ "_Push" ++ m.methodName,
  m.moduleName ++ "_Register_" ++ m.methodName ++ "Update",
  m.moduleName ++ "_Unregister_" ++ m.methodName ++ "Update",
  m.moduleName ++ "_Register_" ++ m.methodName ++ "Pull",
  m.moduleName ++ "_Unregister_" ++ m.methodName ++ "Pull"]

/-- Names of the types of callbacks that the header may declare for the method. -/
def callbackNames (m : MethodPlace) : List String := [
  Notification.callbackName m .propertyChanged,
  Notification.callbackName m .event,
  Pull.callbackName m]

def identifiers (m : MethodPlace) : List String := m.functionNames ++ m.callbackNames

/-- Code of a header that is under the name of a method of the document and declares only
functions that are called after it. -/
def IsNamed (document : Document) (symbol : String) (code : Fragment) : Prop :=
  ∃ m : MethodPlace, m.Of document ∧ symbol :: code.prototypes.map (·.name) ⊆ m.identifiers

end MethodPlace

/-! ## Headers -/

open MethodPlace (IsNamed)

/-- A wire type declares nothing in a header. -/
theorem Wire.Built.output_all {cx : Context} {isExternal : Bool} {document : Document}
    {type : WireType} (h : Wire.Built cx isExternal document type) :
    type.output.All fun place _ _ ↦ place = .containers := by
  induction h with
  | primitive => exact Output.all_empty
  | enumeration => exact Output.all_empty
  | array _ habsorb ih => exact Output.all_empty.merge ih habsorb
  | object _ hgathered hinsert ih =>
    refine Output.All.insert (Failure.foldlM_induction (P := fun soFar ↦
      soFar.output.All fun place _ _ ↦ place = .containers) Output.all_empty hgathered ?_) rfl
      hinsert
    intro part hpart soFar next hsoFar hnext
    obtain ⟨isExternal, property, type, place, output, rfl, habsorb, rfl⟩ | ⟨notice, -, rfl⟩ :=
      Part.add_cases hnext
    · exact hsoFar.merge (ih _ _ _ _ hpart) habsorb
    · exact hsoFar.addDiagnostic notice
  | map _ habsorb ih => exact Output.all_empty.merge ih habsorb
  | external => exact Output.all_of_get_eq_empty fun place ↦ by cases place <;> rfl

/-- Types of the document, and functions that are called after its methods. -/
def Output.IsHeaderOf (runtime : Runtime) (document : Document) (output : Output) : Prop :=
  output.All (Access.Declares runtime document.title (IsNamed document))

namespace Output

variable {runtime : Runtime} {document : Document} {output other result : Output}

theorem merges_isHeaderOf (runtime : Runtime) (document : Document) :
    Merges (IsHeaderOf runtime document) where
  empty := all_empty
  congr h heq _ := All.congr h heq
  merge h hother hmerge := All.merge h hother hmerge

end Output

namespace Emission

variable {mappers : Mappers} {runtime runtime' : Runtime} {document : Document}
  {m m' : MethodPlace} {symbol path : String} {pieces : List Piece}

theorem keeps_mapValue_isHeaderOf {cx : Context} {budget : Nat} {v : Visit} {scope : String}
    (hv : v.document = document) :
    Keeps freeRules (fun _ ↦ Output.IsHeaderOf cx.runtime document)
      (mapValue (.ofBudget cx budget) v.document v.node (v.request scope)) := by
  subst hv
  refine keeps_mapValue_of (Output.merges_isHeaderOf _ _) (fun h ↦ h.declares) fun h ↦ ?_
  refine h.output_all.imp ?_
  rintro _ symbol code rfl
  exact trivial

theorem keeps_prototype_section (hm : m.Of document)
    (h : symbol :: (Fragment.ofPieces pieces).prototypes.map (·.name) ⊆ m.identifiers) :
    Keeps freeRules (fun _ ↦ Output.IsHeaderOf runtime document)
      (insert .prototypes symbol pieces path) := by
  have hcode : Access.Declares runtime document.title (IsNamed document) .prototypes symbol
      (.ofPieces pieces) := ⟨m, hm, h⟩
  exact keeps_insert fun _ _ hinsert hheader ↦ Output.All.insert hheader hcode hinsert

/-- Functions that are called after a method are declared under one of their names. -/
theorem keeps_prototypes {text : String} (hm : m.Of document) (signatures : List Signature)
    (hsymbol : symbol ∈ m.identifiers) (h : ∀ s ∈ signatures, s.name ∈ m.identifiers) :
    Keeps freeRules (fun _ ↦ Output.IsHeaderOf runtime document)
      (insert .prototypes symbol (.comment text :: signatures.map .prototype) path) := by
  apply keeps_prototype_section hm
  have hprototypes : (Fragment.ofPieces
      (.comment text :: signatures.map .prototype)).prototypes = signatures := by
    unfold Fragment.prototypes Fragment.ofPieces
    rw [List.flatMap_cons, List.flatMap_map]
    exact List.flatMap_singleton' signatures
  rw [hprototypes, List.cons_subset]
  refine ⟨hsymbol, fun name hname ↦ ?_⟩
  obtain ⟨s, hs, rfl⟩ := List.mem_map.1 hname
  exact h s hs

theorem keeps_callback {callback : Callback} (hm : m.Of document)
    (hsymbol : symbol ∈ m.callbackNames) :
    Keeps freeRules (fun _ ↦ Output.IsHeaderOf runtime document)
      (insert .prototypes symbol [.callback callback] path) := by
  refine keeps_prototype_section hm (List.cons_subset.2 ⟨List.mem_append_right _ hsymbol, ?_⟩)
  exact List.nil_subset _

theorem keeps_implementation :
    Keeps freeRules (fun _ ↦ Output.IsHeaderOf runtime document)
      (insert .implementations symbol pieces path) := by
  have hcode : Access.Declares runtime document.title (IsNamed document) .implementations symbol
      (.ofPieces pieces) := trivial
  exact keeps_insert fun _ _ hinsert hheader ↦ Output.All.insert hheader hcode hinsert

theorem keeps_metrics :
    Keeps freeRules (fun _ ↦ Output.IsHeaderOf runtime document) (metricsJob runtime' m') := by
  unfold metricsJob
  split
  · have hmodify : Keeps freeRules (fun _ ↦ Output.IsHeaderOf runtime document)
        (modify fun output ↦ { output with usesMetrics := true }) :=
      fun _ ↦ obeys_pure fun _ _ h ↦ Output.All.congr h fun place ↦ by cases place <;> rfl
    exact hmodify.bind fun _ ↦ keeps_implementation.bind fun _ ↦ keeps_pure _
  · exact keeps_pure []

/-- A function is declared, the report to the metrics module comes in, and the body follows. -/
theorem keeps_function {signature : Signature} {body : Lines → Lines} (hm : m.Of document)
    (h : signature.name ∈ m.functionNames) :
    Keeps freeRules (fun _ ↦ Output.IsHeaderOf runtime document) (do
      Call.addPrototype m' signature
      let metrics ← metricsJob runtime' m'
      Call.addFunction m' signature (body metrics)) := by
  have hname : signature.name ∈ m.identifiers := List.mem_append_left _ h
  exact (keeps_prototypes hm [signature] hname (List.forall_mem_singleton.2 hname)).bind fun _ ↦
    keeps_metrics.bind fun _ ↦ keeps_implementation

/-- Two functions that register and unregister a callback are declared, and what they hand over
comes in before their bodies. -/
theorem keeps_registration {register unregister : Signature} {text static : String}
    {code code' : List Piece} (hm : m.Of document) (h : register.name ∈ m.functionNames)
    (h' : unregister.name ∈ m.functionNames) :
    Keeps freeRules (fun _ ↦ Output.IsHeaderOf runtime document) (do
      insert .prototypes register.name
        [m.commentWith text, .prototype register, .prototype unregister] m.path
      insert .implementations static code m.path
      insert .implementations register.name code' m.path) := by
  have hname : register.name ∈ m.identifiers := List.mem_append_left _ h
  have hnames : ∀ s ∈ [register, unregister], s.name ∈ m.identifiers :=
    List.forall_mem_cons.2 ⟨hname, List.forall_mem_singleton.2 (List.mem_append_left _ h')⟩
  exact (keeps_prototypes hm [register, unregister] hname hnames).bind fun _ ↦
    keeps_implementation.bind fun _ ↦ keeps_implementation

/-- All that is declared for a method is called after it. -/
theorem functions_named (hm : m.Of document) :
    KeepsFunctions freeRules (fun _ ↦ Output.IsHeaderOf runtime document) mappers runtime' m where
  plain method hmethod hparams hresult := by
    have hname : ({ m with method := method } : MethodPlace).moduleName ++ "_" ++
        ({ m with method := method } : MethodPlace).methodName ∈ m.functionNames := by
      simp only [List.mem_cons, List.not_mem_nil, or_false] at hmethod
      obtain rfl | rfl := hmethod <;> exact List.mem_cons_self
    exact hparams.bind fun _ ↦ hresult.bind fun _ ↦ keeps_function hm hname
  getter _ _ := keeps_function hm (by simp [MethodPlace.functionNames, Call.getterSignature])
  setter _ _ := keeps_function hm (by simp [MethodPlace.functionNames, Call.setterSignature])
  notification kind arguments _ := by
    have hcallback : Notification.callbackName m kind ∈ m.callbackNames := by
      cases kind <;> simp [MethodPlace.callbackNames]
    exact (keeps_callback hm hcallback).bind fun _ ↦ keeps_registration hm
      (by simp [MethodPlace.functionNames, Notification.registerSignature])
      (by simp [MethodPlace.functionNames, Notification.unregisterSignature])
  pulled response _ := by
    have hpush : (Pull.pushSignature m response).name ∈ m.identifiers :=
      List.mem_append_left _ (by simp [MethodPlace.functionNames, Pull.pushSignature])
    have hcallback : Pull.callbackName m ∈ m.callbackNames := by
      simp [MethodPlace.callbackNames]
    exact (keeps_prototypes hm [_] hpush (List.forall_mem_singleton.2 hpush)).bind fun _ ↦
      keeps_metrics.bind fun _ ↦ keeps_implementation.bind fun _ ↦
      (keeps_callback hm hcallback).bind fun _ ↦ keeps_registration hm
        (by simp [MethodPlace.functionNames, Pull.registerSignature])
        (by simp [MethodPlace.functionNames, Pull.unregisterSignature])

end Emission

/-- What is generated for a document has only types of the document and functions that are called
after its methods in its header. -/
theorem Generate.documentOutput_isHeaderOf {library : Library} {settings : Settings}
    {document : Document} (budget : Nat) :
    Obeys freeRules (fun _ ↦ True)
      (documentOutput (.ofBudget ⟨library, settings.runtime⟩ budget) library settings document)
      fun _ output ↦ output.IsHeaderOf settings.runtime document := by
  have hmerges := Output.merges_isHeaderOf settings.runtime document
  have hlasts : Emission.Lasts freeRules
      (fun _ output ↦ output.IsHeaderOf settings.runtime document) (fun _ ↦ False)
      (.ofBudget ⟨library, settings.runtime⟩ budget) fun v _ ↦ v.document = document :=
    { stable := fun _ _ _ h _ ↦ h
      allows := fun _ ↦ trivial
      congr := hmerges.congr
      insert := fun _ h ↦ h.elim
      mapValue := fun hv ↦ Emission.keeps_mapValue_isHeaderOf hv }
  refine (documentOutput_of_merges hmerges hlasts (fun _ _ hroot ↦ hroot.document_eq) fun _ hm ↦
    Emission.functions_named hm).imp (fun _ h ↦ h) ?_
  rintro _ _ ⟨whole, hwhole, rfl⟩
  exact Output.All.congr hwhole fun place ↦ by cases place <;> rfl

/-! ## Underscores -/

def Text.underscores (text : String) : Nat := text.toList.count '_'

open Text (underscores)

theorem Text.underscores_append (left right : String) :
    underscores (left ++ right) = underscores left + underscores right := by
  simp [underscores]

namespace MethodPlace

variable {m : MethodPlace} {name : String}

theorem underscores_callback (hplain : '_' ∉ m.methodName.toList) (h : name ∈ m.callbackNames) :
    underscores name = underscores m.moduleName := by
  have hmethod : underscores m.methodName = 0 := List.count_eq_zero.2 hplain
  have hwords : underscores "On" = 0 ∧ underscores "OnPull" = 0 ∧ underscores "Changed" = 0 ∧
      underscores "Callback" = 0 := by decide
  simp only [callbackNames, Notification.callbackName, Pull.callbackName, List.mem_cons,
    List.not_mem_nil, or_false] at h
  obtain rfl | rfl | rfl := h <;> simp only [Text.underscores_append, hmethod, hwords] <;> omega

/-- A function of a method without underscores has one more than the title of the document, or it
registers or unregisters a callback. -/
theorem function_cases (hplain : '_' ∉ m.methodName.toList) (h : name ∈ m.functionNames) :
    underscores name = underscores m.moduleName + 1 ∨
      underscores name = underscores m.moduleName + 2 ∧ ∃ left ending,
        ending ∈ ["Update", "Pull"] ∧ name = left ++ "_" ++ (m.methodName ++ ending) := by
  have hmethod : underscores m.methodName = 0 := List.count_eq_zero.2 hplain
  have hcalls : ∀ verb : String, underscores verb = 1 →
      underscores (m.moduleName ++ verb ++ m.methodName) = underscores m.moduleName + 1 := by
    intro verb hverb
    rw [Text.underscores_append, Text.underscores_append, hverb, hmethod]
  have hregisters : ∀ verb ending : String, underscores verb = 1 → ending ∈ ["Update", "Pull"] →
      underscores (m.moduleName ++ (verb ++ "_") ++ m.methodName ++ ending) =
        underscores m.moduleName + 2 ∧ ∃ left ending', ending' ∈ ["Update", "Pull"] ∧
          m.moduleName ++ (verb ++ "_") ++ m.methodName ++ ending =
            left ++ "_" ++ (m.methodName ++ ending') := by
    intro verb ending hverb hending
    have hnone : underscores ending = 0 := by
      revert ending
      decide
    refine ⟨?_, m.moduleName ++ verb, ending, hending, by simp only [String.append_assoc]⟩
    simp only [Text.underscores_append, hverb, hmethod, hnone]
    rfl
  simp only [functionNames, List.mem_cons, List.not_mem_nil, or_false] at h
  obtain rfl | rfl | rfl | rfl | rfl | rfl | rfl | rfl := h
  · exact .inl (hcalls "_" rfl)
  · exact .inl (hcalls "_Get" rfl)
  · exact .inl (hcalls "_Set" rfl)
  · exact .inl (hcalls "_Push" rfl)
  · exact .inr (hregisters "_Register" "Update" rfl (by decide))
  · exact .inr (hregisters "_Unregister" "Update" rfl (by decide))
  · exact .inr (hregisters "_Register" "Pull" rfl (by decide))
  · exact .inr (hregisters "_Unregister" "Pull" rfl (by decide))

end MethodPlace

namespace Access

variable {runtime : Runtime} {base name : String} {g : AccessorGroup}

/-- No function that registers a callback ends like an accessor. -/
theorem verb_ne {aspect : Aspect} {verb left ending : String} (hverb : verb ∈ aspect.verbs)
    (hending : ending ∈ ["Update", "Pull"]) : verb ≠ left ++ ending := by
  have hsuffix : ∀ aspect : Aspect, ∀ verb ∈ aspect.verbs, ∀ ending ∈ ["Update", "Pull"],
      ¬ending.toList <:+ verb.toList := by
    rintro (_ | _ | _ | _) <;> decide
  rintro rfl
  exact hsuffix aspect _ hverb ending hending ⟨left.toList, (String.toList_append).symm⟩

theorem Behind.name_cases (hg : Behind runtime base g) (h : name ∈ g.names) :
    (∃ own aspect, ∃ verb ∈ Aspect.verbs aspect, name = base ++ own ++ "_" ++ verb) ∨
      ∃ verb member, name = base ++ "_" ++ verb ++ "_" ++ member := by
  have hcalled : ∀ own aspect, name ∈ called (base ++ own) (Aspect.verbs aspect) →
      ∃ own aspect, ∃ verb ∈ Aspect.verbs aspect, name = base ++ own ++ "_" ++ verb := by
    intro own aspect hname
    obtain ⟨verb, hverb, rfl⟩ := List.mem_map.1 hname
    exact ⟨own, aspect, verb, hverb, rfl⟩
  cases hg with
  | life container =>
    rw [names_lifecycle] at h
    exact .inl (hcalled "Handle" .life h)
  | property container property value options =>
    rw [names_property] at h
    obtain ⟨verb, -, rfl⟩ := List.mem_map.1 h
    exact .inr ⟨verb, Text.capitalize property, rfl⟩
  | inPlace container property element =>
    rw [names_elements] at h
    refine .inl (hcalled ("_" ++ Text.capitalize property ++ "Array") .elements ?_)
    simpa only [String.append_assoc] using h
  | elements container element =>
    rw [names_elements, ← String.append_empty (s := base)] at h
    exact .inl (hcalled "" .elements h)
  | entries container value =>
    rw [names_entries, ← String.append_empty (s := base)] at h
    exact .inl (hcalled "" .entries h)

end Access

/-! ## Both kinds of names -/

namespace Output

open Access

/-- Names of the enumerations, handles and accessors that the header declares. -/
def typeNames (output : Output) : List String :=
  output.enums.symbols ++ output.declarations.symbols ++ output.accessorNames

/-- Names of the functions and of the types of callbacks that the header declares for methods. -/
def methodNames (output : Output) : List String :=
  output.prototypes.symbols ++ (output.prototypes.entries.flatMap (·.2.prototypes)).map (·.name)

variable {output : Output} {runtime : Runtime} {title name : String}
  {functions : String → Fragment → Prop}

theorem All.mem_accessorNames (hall : output.All (Declares runtime title functions))
    (h : name ∈ output.accessorNames) :
    ∃ stem g, Behind runtime (Names.qualified title stem) g ∧ name ∈ g.names := by
  rw [hall.accessorNames_eq] at h
  obtain ⟨g, hg, hname⟩ := List.mem_flatMap.1 h
  obtain ⟨stem, hbehind⟩ := hall.behind hg
  exact ⟨stem, g, hbehind, hname⟩

/-- The name of a type has more underscores than the title. -/
theorem All.underscores_lt (hall : output.All (Declares runtime title functions))
    (h : name ∈ output.typeNames) : underscores (Text.capitalize title) < underscores name := by
  have hstem : ∀ stem rest : String, underscores (Text.capitalize title) <
      underscores (Names.qualified title stem ++ rest) := by
    intro stem rest
    have hmark : underscores "_" = 1 := rfl
    simp only [Names.qualified, Text.underscores_append, hmark]
    omega
  simp only [typeNames, List.mem_append, or_assoc] at h
  obtain h | h | h := h
  · obtain ⟨entry, hentry, rfl⟩ := List.mem_map.1 h
    obtain ⟨stem, hsymbol⟩ := hall .enums entry.1 entry.2 hentry
    rw [hsymbol, ← String.append_empty (s := Names.qualified title stem)]
    exact hstem stem ""
  · obtain ⟨entry, hentry, rfl⟩ := List.mem_map.1 h
    obtain ⟨stem, hsymbol, -⟩ := hall.groups_eq hentry
    rw [hsymbol]
    exact hstem stem "Handle"
  · obtain ⟨stem, g, hbehind, hname⟩ := hall.mem_accessorNames h
    obtain ⟨own, aspect, verb, -, rfl⟩ | ⟨verb, member, rfl⟩ := hbehind.name_cases hname
    · simpa only [String.append_assoc] using hstem stem (own ++ "_" ++ verb)
    · simpa only [String.append_assoc] using hstem stem ("_" ++ verb ++ "_" ++ member)

/-- Functions of methods without underscores are no accessors. -/
theorem All.notMem_accessorNames {m : MethodPlace}
    (hall : output.All (Declares runtime m.document.title functions))
    (hplain : '_' ∉ m.methodName.toList) (h : name ∈ m.functionNames) :
    name ∉ output.accessorNames := by
  intro haccessor
  obtain ⟨stem, g, hbehind, hname⟩ := hall.mem_accessorNames haccessor
  have hmark : underscores "_" = 1 := rfl
  have htitle : underscores (Names.qualified m.document.title stem) =
      underscores m.moduleName + 1 + underscores stem := by
    simp only [Names.qualified, Text.underscores_append, hmark, MethodPlace.moduleName]
  obtain hcount | ⟨hcount, left, ending, hending, hleft⟩ := m.function_cases hplain h
  · obtain ⟨own, aspect, verb, -, rfl⟩ | ⟨verb, member, rfl⟩ := hbehind.name_cases hname <;>
      simp only [Text.underscores_append, htitle, hmark] at hcount <;> omega
  · obtain ⟨own, aspect, verb, hverb, rfl⟩ | ⟨verb, member, rfl⟩ := hbehind.name_cases hname
    · have hword : ∀ ending ∈ ["Update", "Pull"], '_' ∉ ending.toList := by decide
      have hmethod : '_' ∉ (m.methodName ++ ending).toList := by
        rw [String.toList_append, List.mem_append, not_or]
        exact ⟨hplain, hword ending hending⟩
      obtain ⟨-, hsame⟩ :=
        (Text.append_underscore_inj (aspect.plain_verbs verb hverb) hmethod).1 hleft
      exact verb_ne hverb hending hsame
    · simp only [Text.underscores_append, htitle, hmark] at hcount
      omega

variable {document : Document}

theorem IsHeaderOf.exists_method (h : output.IsHeaderOf runtime document)
    (hname : name ∈ output.methodNames) :
    ∃ m : MethodPlace, m.Of document ∧ name ∈ m.identifiers := by
  obtain hname | hname := List.mem_append.1 hname
  · obtain ⟨entry, hentry, rfl⟩ := List.mem_map.1 hname
    obtain ⟨m, hm, hsubset⟩ := h .prototypes entry.1 entry.2 hentry
    exact ⟨m, hm, hsubset List.mem_cons_self⟩
  · obtain ⟨s, hs, rfl⟩ := List.mem_map.1 hname
    obtain ⟨entry, hentry, hmem⟩ := List.mem_flatMap.1 hs
    obtain ⟨m, hm, hsubset⟩ := h .prototypes entry.1 entry.2 hentry
    exact ⟨m, hm, hsubset (List.mem_cons_of_mem _ (List.mem_map_of_mem hmem))⟩

end Output

/-- A function or a callback of a method has the name of a type or of an accessor only if a function
has the name of an enumeration or of a handle, or the method has an underscore in its own name. -/
theorem methods_and_types_are_apart_iff {library : Library} {settings : Settings}
    {document : Document} {budget : Nat} {session session' : Session} {output : Output}
    (h : Generate.documentOutput (.ofBudget ⟨library, settings.runtime⟩ budget) library settings
      document session = some (.ok output, session')) :
    output.methodNames.Disjoint output.typeNames ↔
      ∀ m : MethodPlace, m.Of document → ∀ name ∈ output.methodNames,
        (name ∈ m.functionNames →
          name ∉ output.enums.symbols ∧ name ∉ output.declarations.symbols) ∧
        ('_' ∈ m.methodName.toList → name ∈ m.identifiers → name ∉ output.typeNames) := by
  have hheader : output.IsHeaderOf settings.runtime document :=
    (Generate.documentOutput_isHeaderOf budget h trivial trivial).2.2
  constructor
  · intro hdisjoint m _ name hname
    have htype : name ∉ output.typeNames := hdisjoint hname
    refine ⟨fun _ ↦ ⟨fun henum ↦ htype ?_, fun hhandle ↦ htype ?_⟩, fun _ _ ↦ htype⟩
    · exact List.mem_append_left _ (List.mem_append_left _ henum)
    · exact List.mem_append_left _ (List.mem_append_right _ hhandle)
  · intro hnames name hname htype
    obtain ⟨m, hm, hmem⟩ := hheader.exists_method hname
    obtain ⟨hfunction, hunderscore⟩ := hnames m hm name hname
    by_cases hplain : '_' ∈ m.methodName.toList
    · exact hunderscore hplain hmem htype
    have hall : output.All
        (Access.Declares settings.runtime m.document.title (IsNamed document)) := by
      rw [hm.1]
      exact hheader
    obtain hmem | hmem := List.mem_append.1 hmem
    · obtain ⟨henum, hhandle⟩ := hfunction hmem
      obtain htype | haccessor := List.mem_append.1 htype
      · exact (List.mem_append.1 htype).elim henum hhandle
      · exact hall.notMem_accessorNames hplain hmem haccessor
    · have hlt := hall.underscores_lt htype
      rw [m.underscores_callback hplain hmem] at hlt
      exact lt_irrefl _ hlt

namespace Heater

def mode : Node := .ofKind (.enumeration ["eco", "full"])

/-- A document with one method, which returns the mode. -/
def heater (name : String) : Document where
  uri := "Heater"
  title := "Heater"
  family := .api
  definitionsRoot := "#/components/schemas"
  definitions := [("Mode", mode)]
  methods := [⟨name, none, [], some ⟨"mode", .ofKind (.reference "#/components/schemas/Mode")⟩, []⟩]
  content := .object [("components", .object [("schemas", .object [("Mode", .object [
    ("type", .string "string"), ("enum", .array [.string "eco", .string "full"])])])])]

def output? (name : String) : Option (Except Failure Output × Session) :=
  Generate.documentOutput (.ofBudget ⟨⟨[heater name]⟩, {}⟩ 8) ⟨[heater name]⟩ {} (heater name) {}

theorem run_state : (output? "state").any (fun run ↦ run.1.toOption.any fun output ↦
    (output.methodNames, output.enums.symbols, output.declarations.symbols) ==
      (["Heater_State", "Heater_State"], ["Heater_Mode"], [])) = true := by
  decide +kernel

/-- The method that asks for the state is not in the way of the type of modes. -/
theorem state_and_mode_are_apart : ∃ output session,
    output? "state" = some (.ok output, session) ∧
      output.methodNames = ["Heater_State", "Heater_State"] ∧
        output.methodNames.Disjoint output.typeNames := by
  obtain ⟨output, session, hrun, hcheck⟩ := exists_ok_of_any run_state
  simp only [beq_iff_eq, Prod.mk.injEq] at hcheck
  obtain ⟨hmethods, henums, hdeclarations⟩ := hcheck
  refine ⟨output, session, hrun, hmethods, (methods_and_types_are_apart_iff hrun).2 ?_⟩
  intro m hm name hname
  rw [hmethods] at hname
  obtain rfl : name = "Heater_State" := by simpa using hname
  refine ⟨fun _ ↦ ?_, fun hunderscore ↦ absurd hunderscore ?_⟩
  · rw [henums, hdeclarations]
    decide
  · have hmethod : m.method ∈ (heater "state").methods := List.mem_of_getElem? hm.2
    rw [MethodPlace.methodName, List.mem_singleton.1 hmethod]
    decide

theorem run_mode : (output? "mode").any (fun run ↦ run.1.toOption.any fun output ↦
    (output.prototypes.symbols, output.enums.symbols) == (["Heater_Mode"], ["Heater_Mode"])) =
      true := by
  decide +kernel

/-- The method that asks for the mode is declared under the name of the type of modes. -/
theorem mode_is_function_and_type : ∃ output session,
    output? "mode" = some (.ok output, session) ∧
      output.prototypes.symbols = ["Heater_Mode"] ∧ output.enums.symbols = ["Heater_Mode"] ∧
        ¬output.methodNames.Disjoint output.typeNames := by
  obtain ⟨output, session, hrun, hcheck⟩ := exists_ok_of_any run_mode
  simp only [beq_iff_eq, Prod.mk.injEq] at hcheck
  obtain ⟨hmethods, henums⟩ := hcheck
  refine ⟨output, session, hrun, hmethods, henums, fun hdisjoint ↦ ?_⟩
  have hmethod : "Heater_Mode" ∈ output.methodNames :=
    List.mem_append_left _ (hmethods ▸ List.mem_cons_self)
  have htype : "Heater_Mode" ∈ output.typeNames :=
    List.mem_append_left _ (List.mem_append_left _ (henums ▸ List.mem_cons_self))
  exact hdisjoint hmethod htype

end Heater

end SchemaBindings
