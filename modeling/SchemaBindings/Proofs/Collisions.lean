import SchemaBindings.Proofs.Accounted
import SchemaBindings.Proofs.Emissions

/-!
# Collisions

The generation of a document is stopped by a collision of names when two pieces of code compete
for a symbol. If the schemas that are mapped for the document are tidy, they are code of functions:
the symbols of a type belong to the schema that declares it. If they are not, types may collide. A
composition reserves the symbols of an object before it is merged, and when it turns out to be an
array, the symbols that it then uses are owned by nobody.
-/

namespace SchemaBindings

open Code Mapping Emission

variable {cx : Context} {roots : Visit → Prop} {isFunction : String → Prop} {document : Document}
  {runtime : Runtime} {budget : Nat}

variable (cx isFunction document budget) in
/-- Outputs of tidy schemas stay accounted for. -/
theorem lasts_accounted (htidy : Tidy cx.library roots) :
    Lasts (functionRules cx.library roots isFunction)
      (fun registry output ↦ output.All (Accounts cx roots isFunction document registry))
      isFunction (.ofBudget cx budget)
      fun v _ ↦ Visited cx.library roots v ∧ v.document = document where
  stable := stable_accounted
  allows := allows_of_isCollision
  congr h heq _ := h.congr heq
  insert {place symbol} hplace hsymbol pieces path output := by
    unfold Emission.insert
    rw [get_bind]
    refine lift_bind (obeys_within htidy document fun registry hstart ↦ ?_) fun output ↦
      obeys_pure fun _ _ hstart ↦ hstart.1
    exact Output.insert_within hstart (.inr ⟨hplace, hsymbol⟩)
  mapValue {v scope} hv output := by
    obtain ⟨hv, rfl⟩ := hv
    refine lift_bind ((Native.map_accounted htidy budget v scope hv).keep
      (stable_accounted output)) fun native ↦ ?_
    refine lift_bind ((Wire.map_accounted htidy budget v scope hv).keep
      ((stable_accounted native.output).and (stable_accounted output))) fun wire ↦ ?_
    rw [get_bind]
    refine lift_bind (obeys_merge htidy v.document (fun _ hstart ↦ hstart.2.2)
      fun _ hstart ↦ hstart.2.1) fun output ↦ ?_
    refine lift_bind (obeys_merge htidy v.document (fun _ hstart ↦ hstart.1)
      fun _ hstart ↦ hstart.2.1) fun output ↦ ?_
    exact obeys_pure fun _ _ hstart ↦ hstart.1

theorem keeps_addMethod_accounted (htidy : Tidy cx.library roots) {m : MethodPlace}
    (hschemas : ∀ v, m.Schemas v → Visited cx.library roots v)
    (hfunctions : ∀ symbol ∈ m.functions runtime, isFunction symbol) :
    Keeps (functionRules cx.library roots isFunction)
      (fun registry output ↦ output.All (Accounts cx roots isFunction m.document registry))
      (Generate.addMethod (.ofBudget cx budget) runtime m) := by
  have hlasts := lasts_accounted cx isFunction m.document budget htidy
  have hemit := emit_obeys hlasts (keeps_functions hlasts hfunctions)
    (fun _ _ hempty _ ↦ Output.all_of_get_eq_empty hempty)
    fun v hv ↦ ⟨hschemas v hv, by cases hv <;> rfl⟩
  refine Generate.keeps_addMethod hlasts.stable hemit fun output emitted ↦ ?_
  exact (obeys_merge htidy m.document (fun _ hstart ↦ hstart.2) fun _ hstart ↦ hstart.1).imp
    (fun _ hstart ↦ hstart) fun _ _ hend ↦ hend.1

open Generate in
/-- If the schemas that are mapped for a document are tidy, no two of them that have stems share a
symbol unless they are at the same place, and its generation is stopped by no collision of names
but one over a function. -/
theorem only_functions_collide {library : Library} {settings : Settings}
    (htidy : Tidy library (Root library settings document)) {result : Except Failure Output}
    {session : Session}
    (hrun : documentOutput (.ofBudget ⟨library, settings.runtime⟩ budget) library settings document
      {} = some (result, session)) :
    (∀ symbol path, result = .error (.nameCollision symbol path) →
      IsFunction settings.runtime document symbol) ∧
    ∀ v v' d d' stem stem' symbol, Visited library (Root library settings document) v →
      Visited library (Root library settings document) v' → v.declared? = some d →
      v'.declared? = some d' → session.registry.stem? v.path = some stem →
      session.registry.stem? v'.path = some stem' →
      symbol ∈ d.kind.symbols v.document.title stem →
      symbol ∈ d'.kind.symbols v'.document.title stem' → v.path = v'.path := by
  let rules := functionRules library (Root library settings document)
    (IsFunction settings.runtime document)
  let good : Registry → Output → Prop := fun registry output ↦ output.All
    (Accounts ⟨library, settings.runtime⟩ (Root library settings document)
      (IsFunction settings.runtime document) document registry)
  let mappers := Mappers.ofBudget ⟨library, settings.runtime⟩ budget
  have hlasts : Lasts rules good (IsFunction settings.runtime document) mappers
      fun v _ ↦ Visited library (Root library settings document) v ∧ v.document = document :=
    lasts_accounted ⟨library, settings.runtime⟩ (IsFunction settings.runtime document) document
      budget htidy
  have hdefinitions : Keeps rules good ((standalone library settings document).forM
      (mapDefinition mappers document)) :=
    keeps_forM fun name hname ↦ keeps_mapDefinition hlasts ⟨.root (.definition hname), rfl⟩
  have hadd : ∀ m : MethodPlace, m.Of document →
      Keeps rules good (addMethod mappers settings.runtime m) := by
    rintro m ⟨rfl, hmethod⟩
    exact keeps_addMethod_accounted htidy (fun v hv ↦ .root (.method ⟨rfl, hmethod⟩ hv))
      fun symbol hsymbol ↦ ⟨m, ⟨rfl, hmethod⟩, hsymbol⟩
  have hmethods : Keeps rules good
      (addMethods mappers settings.runtime document 0 document.methods) :=
    keeps_addMethods hadd fun k method hmethod ↦ by rwa [Nat.zero_add]
  have hobeys : Obeys rules (fun _ ↦ True) (documentOutput mappers library settings document)
      fun _ _ ↦ True := by
    refine ((hdefinitions.bind fun _ ↦ hmethods) {}).imp (fun _ _ ↦ Output.all_empty)
      (fun _ _ hend ↦ hend) |>.bind fun _ ↦ obeys_pure fun _ _ _ ↦ trivial
  obtain ⟨hsound, -, hmeets⟩ := hobeys hrun Registry.sound_empty trivial
  constructor
  · rintro symbol path rfl
    exact hmeets symbol path rfl
  · intro v v' d d' stem stem' symbol hv hv' hdeclared hdeclared' hstem hstem' hsymbol hsymbol'
    have howner := hsound.owner? htidy hv hdeclared hstem hsymbol
    rw [hsound.owner? htidy hv' hdeclared' hstem' hsymbol'] at howner
    exact (Option.some.inj howner).symm

namespace TwoSetters

/-- Two methods of one name, of which one takes a mode and the other one a text. -/
def setter (schema : Node) : Method where
  name := "set"
  summary := none
  params := [⟨"mode", true, none, schema⟩]
  result := none
  tags := []

def device : Document where
  uri := "Device"
  title := "Device"
  family := .api
  definitionsRoot := "#/definitions"
  definitions := [("Mode", .ofKind (.enumeration ["on", "off"]))]
  methods := [setter (.ofKind (.reference "#/definitions/Mode")),
    setter (.ofKind (.primitive .string none))]
  content := .object [("definitions", .object [
    ("Mode", .object [("type", .string "string"),
      ("enum", .array [.string "on", .string "off"])])])]

def library : Library := ⟨[device]⟩

def mode : Visit :=
  ⟨device, .ofKind (.enumeration ["on", "off"]), "Mode", "Device#/definitions/Mode"⟩

theorem resolve_mode (place : String) :
    library.resolve device "#/definitions/Mode" place =
      .ok ⟨device, mode.node, "Mode", false, "Device#/definitions/Mode", mode.path⟩ := by
  cbv

theorem kind_of_schemas {m : MethodPlace} (hm : m.Of device) {v : Visit} (h : m.Schemas v) :
    v.document = device ∧ (v.node.kind = .reference "#/definitions/Mode" ∨
      v.node.kind = .primitive .string none) := by
  obtain ⟨hdocument, hmethod⟩ := hm
  have hsetter : ∃ schema, m.method = setter schema ∧
      (schema.kind = .reference "#/definitions/Mode" ∨ schema.kind = .primitive .string none) := by
    obtain hfirst | hmem := List.mem_cons.1 (List.mem_of_getElem? hmethod)
    · exact ⟨_, hfirst, .inl rfl⟩
    · exact ⟨_, List.mem_singleton.1 hmem, .inr rfl⟩
  obtain ⟨schema, hsetter, hkind⟩ := hsetter
  have hclass : MethodClass.of m.method = .plain := by
    rw [hsetter]
    rfl
  cases h with
  | param hparams h =>
    unfold MethodPlace.params? at hparams
    rw [hclass, hsetter] at hparams
    cases hparams
    cases List.mem_singleton.1 (List.mem_of_getElem? h)
    exact ⟨hdocument, hkind⟩
  | result _ h =>
    rw [hsetter] at h
    cases h
  | federated hpull =>
    rw [hclass] at hpull
    cases hpull

/-- A mapper comes to references to the mode, to a text, and to the mode itself. -/
theorem visited_cases {v : Visit} (h : Visited library (Generate.Root library {} device) v) :
    (v.document = device ∧ (v.node.kind = .reference "#/definitions/Mode" ∨
      v.node.kind = .primitive .string none)) ∨ v = mode := by
  induction h with
  | root h =>
    cases h with
    | definition h =>
      have hname : Generate.standalone library {} device = ["Mode"] := by decide +kernel
      have href : device.definitionRef "Mode" = "#/definitions/Mode" := by decide +kernel
      rw [hname] at h
      cases List.mem_singleton.1 h
      exact .inl ⟨rfl, .inl (congrArg Kind.reference href)⟩
    | method hm h => exact .inl (kind_of_schemas hm h)
  | step h hcomes ih =>
    obtain ⟨hdocument, hkind | hkind⟩ | rfl := ih
    · cases hcomes with
      | target hkind' htarget =>
        rw [hkind] at hkind'
        cases hkind'
        rw [hdocument, resolve_mode] at htarget
        cases htarget
        exact .inr rfl
      | _ => simp_all
    · have hleads := hcomes.kind
      simp [hkind] at hleads
    · have hleads := hcomes.kind
      have hkind : mode.node.kind = .enumeration ["on", "off"] := rfl
      simp [hkind] at hleads

theorem declared_cases {v : Visit} (h : Visited library (Generate.Root library {} device) v)
    {d : Declared} (hdeclared : v.declared? = some d) :
    v = mode ∧ d = .enumeration "Mode" none ["on", "off"] := by
  obtain ⟨hdocument, hkind | hkind⟩ | rfl := visited_cases h
  · unfold Visit.declared? at hdeclared
    rw [hkind] at hdeclared
    cases hlabel : v.label <;> rw [hlabel] at hdeclared <;> cases hdeclared
  · unfold Visit.declared? at hdeclared
    rw [hkind] at hdeclared
    cases hlabel : v.label <;> rw [hlabel] at hdeclared <;> cases hdeclared
  · cases hdeclared
    exact ⟨rfl, rfl⟩

theorem definitionClaims_device :
    Registry.definitionClaims library device = [⟨mode.path, .enumeration, "Mode"⟩] := rfl

theorem tidy : Tidy library (Generate.Root library {} device) where
  alike {v v' d d'} hv hv' hdeclared hdeclared' hpath := by
    obtain ⟨rfl, rfl⟩ := declared_cases hv hdeclared
    obtain ⟨rfl, rfl⟩ := declared_cases hv' hdeclared'
    exact ⟨rfl, rfl⟩
  reserved {v home d claim} hv hhome hdeclared hclaim hpath stem := by
    obtain ⟨rfl, rfl⟩ := declared_cases hv hdeclared
    have hdocument : home.document = device := by
      obtain ⟨hdocument, -⟩ | rfl := visited_cases hhome
      · exact hdocument
      · rfl
    rw [hdocument, definitionClaims_device] at hclaim
    rw [hdocument, List.mem_singleton.1 hclaim]
    exact List.Subset.refl _

def failure? (run : Option (Except Failure Output × Session)) : Option Failure :=
  match run with
  | some (.error failure, _) => some failure
  | _ => none

theorem failure?_run : failure? (Generate.documentOutput (.ofBudget ⟨library, {}⟩ 8) library {}
    device {}) = some (.nameCollision "Device_Set" "Device#/methods/1") := by
  decide +kernel

/-- The types are named apart, and the two setters collide. -/
theorem setters_collide : ∃ session,
    Generate.documentOutput (.ofBudget ⟨library, {}⟩ 8) library {} device {} =
      some (.error (.nameCollision "Device_Set" "Device#/methods/1"), session) ∧
    Generate.IsFunction {} device "Device_Set" := by
  have hfailure := failure?_run
  unfold failure? at hfailure
  split at hfailure
  case h_1 failure session hrun =>
    cases hfailure
    exact ⟨session, hrun, (only_functions_collide tidy hrun).1 _ _ rfl⟩
  case h_2 => cases hfailure

end TwoSetters

namespace ComposedArray

/-- A definition that is an array once its composition is merged, and an array of its name. -/
def content : Json := .object [("$id", .string "A"), ("title", .string "A"),
  ("definitions", .object [
    ("X", .object [("allOf", .array [.object [("type", .string "array"),
      ("items", .object [("type", .string "integer")])]])]),
    ("Y", .object [("title", .string "X"), ("type", .string "array"),
      ("items", .object [("type", .string "string")])])])]

theorem isSome_read : (Document.read content).toOption.isSome := by decide +kernel

def composed : Document := (Document.read content).toOption.get isSome_read

/-- The two arrays collide in a document without functions. -/
theorem arrays_collide :
    ((Library.mk [composed]).generateDocument { pruneUnused := false } composed).map (·.status) =
      some (.failed (.nameCollision "A_XArrayHandle" "A#/definitions/Y")) ∧
    composed.methods.length = 0 := by
  decide +kernel

end ComposedArray

end SchemaBindings
