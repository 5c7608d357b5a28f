import SchemaBindings.Proofs.Presence

/-!
# What is left out

A type that cannot be determined stops no document. Wherever schemas are mapped for it, the failure
is taken up: by the parameter that is left out of a signature, by the definition, or by the method.
A method that is left out leaves out everything, since what was put together for it is dropped with
its own output, and what comes into the output of the document instead is one notice.
-/

namespace SchemaBindings

open Code Mapping

namespace Output

/-- The section of the output has code. -/
def HasCode (place : Section) (output : Output) : Prop := (output.get place).isEmpty = false

/-- The output declares functions and defines functions. -/
def HasFunctions (output : Output) : Prop :=
  output.HasCode .prototypes ∧ output.HasCode .implementations

theorem hasCode_iff {place : Section} {output : Output} :
    output.HasCode place ↔ ∃ symbol, (output.find? place symbol).isSome := by
  unfold HasCode find? Fragments.get? Fragments.isEmpty
  cases (output.get place).entries with
  | nil => simp [Table.get?]
  | cons entry rest =>
    refine ⟨fun _ ↦ ⟨entry.1, ?_⟩, fun _ ↦ rfl⟩
    rw [Table.get?, if_pos rfl]
    rfl

theorem lasting_hasCode (place : Section) : Lasting fun _ output ↦ output.HasCode place := by
  refine ⟨fun h _ ↦ h, fun h hgrows ↦ ?_⟩
  obtain ⟨symbol, hsome⟩ := hasCode_iff.1 h
  exact hasCode_iff.2 ⟨symbol, hgrows place symbol hsome⟩

theorem lasting_hasFunctions : Lasting fun _ output ↦ output.HasFunctions :=
  (lasting_hasCode .prototypes).and (lasting_hasCode .implementations)

theorem addDiagnostic_empty (diagnostic : Diagnostic) :
    ({} : Output).addDiagnostic diagnostic = .ofDiagnostic diagnostic := by
  simp [addDiagnostic, ofDiagnostic, addNew]

/-- An output that is nothing but a notice brings in nothing but the notice. -/
theorem merge_ofDiagnostic (output : Output) (diagnostic : Diagnostic) (path : String) :
    (output.merge (.ofDiagnostic diagnostic) path).toExcept =
      .ok (output.addDiagnostic diagnostic) := by
  simp [merge, mergeSections, Section.all, Fragments.merge, Fragments.insertAll, ofDiagnostic, get,
    set, change, Attempt.andThen, Attempt.success, Attempt.toExcept, addAllNew, addDiagnostic]

end Output

/-! ## Functions of methods -/

namespace Emission

variable {α β : Type} {good good' good'' : Output → Prop}

/-- From outputs with the first property the emission only comes to outputs with the second one. -/
def Brings (good good' : Output → Prop) (emission : Emission α) : Prop :=
  ∀ output, Obeys freeRules (fun _ ↦ good output) (emission output) fun _ run ↦ good' run.2

theorem Brings.bind {emission : Emission α} {next : α → Emission β} (h : Brings good good' emission)
    (hnext : ∀ value, Brings good' good'' (next value)) : Brings good good'' (emission >>= next) :=
  fun output ↦ (h output).bind fun run ↦ hnext run.1 run.2

theorem brings_insert {place : Section} {symbol path : String} {pieces : List Piece}
    (hgood : Lasting fun _ output ↦ good output) :
    Brings good (fun output ↦ good output ∧ output.HasCode place)
      (insert place symbol pieces path) := by
  intro output
  unfold Emission.insert
  rw [get_bind]
  refine lift_bind (free_ofExcept fun result hresult registry hstart ↦ ?_)
    fun result ↦ obeys_pure fun _ _ hstart ↦ hstart
  obtain ⟨hgrows, hsome⟩ := Output.grows_insert hresult
  exact ⟨@hgood.grows registry _ _ hstart hgrows, Output.hasCode_iff.2 ⟨symbol, hsome⟩⟩

section Insert

variable {symbol path : String} {pieces : List Piece}

/-- What is there stays when more comes in. -/
theorem brings_more {place : Section} (hgood : Lasting fun _ output ↦ good output) :
    Brings good good (insert place symbol pieces path) :=
  fun output ↦ (brings_insert hgood output).imp (fun _ hstart ↦ hstart) fun _ _ hend ↦ hend.1

theorem brings_prototype :
    Brings (fun _ ↦ True) (Output.HasCode .prototypes) (insert .prototypes symbol pieces path) :=
  fun output ↦ (brings_insert lasting_true output).imp (fun _ hstart ↦ hstart)
    fun _ _ hend ↦ hend.2

/-- The body comes after the prototype. -/
theorem brings_body :
    Brings (Output.HasCode .prototypes) Output.HasFunctions
      (insert .implementations symbol pieces path) :=
  brings_insert (Output.lasting_hasCode .prototypes)

end Insert

section Functions

variable {cx : Context} {budget : Nat} {runtime : Runtime} {m : MethodPlace}

theorem brings_metricsJob :
    Brings (Output.HasCode .prototypes) (Output.HasCode .prototypes) (metricsJob runtime m) :=
  -- nothing is mapped for the job, so that any mappers will do
  keeps_metricsJob (lasts_of_lasting (Output.lasting_hasCode .prototypes) ⟨{}, runtime⟩ 0)
    fun _ _ ↦ trivial

theorem any_mapParams :
    Brings (fun _ ↦ True) (fun _ ↦ True)
      (mapParams (.ofBudget cx budget) m 0 m.method.params) :=
  keeps_mapParams (lasts_of_lasting lasting_true cx budget) fun _ _ _ ↦ trivial

theorem any_mapResult :
    Brings (fun _ ↦ True) (fun _ ↦ True) (mapResult (.ofBudget cx budget) m) :=
  keeps_mapResult (lasts_of_lasting lasting_true cx budget) fun _ _ ↦ trivial

theorem any_requireResult :
    Brings (fun _ ↦ True) (fun _ ↦ True) (requireResult (.ofBudget cx budget) m) :=
  keeps_requireResult (lasts_of_lasting lasting_true cx budget) fun _ _ ↦ trivial

theorem plain_hasFunctions :
    Brings (fun _ ↦ True) Output.HasFunctions (Call.plain (.ofBudget cx budget) runtime m) :=
  any_mapParams.bind fun _ ↦ any_mapResult.bind fun _ ↦ brings_prototype.bind fun _ ↦
    brings_metricsJob.bind fun _ ↦ brings_body

theorem getter_hasFunctions (arguments : List Argument) (result : ResultValue) :
    Brings (fun _ ↦ True) Output.HasFunctions (Call.getter runtime m arguments result) :=
  brings_prototype.bind fun _ ↦ brings_metricsJob.bind fun _ ↦ brings_body

theorem notification_hasFunctions (kind : NotificationKind) (arguments : List Argument)
    (result : ResultValue) :
    Brings (fun _ ↦ True) Output.HasFunctions
      (Notification.emit runtime m kind arguments result) :=
  brings_prototype.bind fun _ ↦ (brings_more (Output.lasting_hasCode .prototypes)).bind fun _ ↦
    brings_body.bind fun _ ↦ brings_more Output.lasting_hasFunctions

theorem emitFunctions_hasFunctions (response request : NativeType) :
    Brings (fun _ ↦ True) Output.HasFunctions
      (Pull.emitFunctions runtime m response request) := by
  have hmore : ∀ {place symbol pieces path}, Brings Output.HasFunctions Output.HasFunctions
      (insert place symbol pieces path) := brings_more Output.lasting_hasFunctions
  exact brings_prototype.bind fun _ ↦ brings_metricsJob.bind fun _ ↦ brings_body.bind fun _ ↦
    hmore.bind fun _ ↦ hmore.bind fun _ ↦ hmore.bind fun _ ↦ hmore

/-- A property has its getter, whatever else it has. -/
theorem property_hasFunctions (isSettable notifies : Bool) :
    Brings (fun _ ↦ True) Output.HasFunctions
      (m.property (.ofBudget cx budget) runtime isSettable notifies) := by
  have hkeeps : KeepsFunctions freeRules (fun _ output ↦ output.HasFunctions) (.ofBudget cx budget)
      runtime m :=
    keeps_functions (lasts_of_lasting Output.lasting_hasFunctions cx budget) fun _ _ ↦ trivial
  refine any_mapParams.bind fun arguments ↦ any_requireResult.bind fun result ↦
    (getter_hasFunctions arguments result).bind fun _ ↦ ?_
  have hnotifies : Brings Output.HasFunctions Output.HasFunctions (if notifies then
      Notification.emit runtime m .propertyChanged arguments result else pure ()) := by
    split
    · exact hkeeps.notification _ arguments result
    · exact keeps_pure ()
  cases isSettable with
  | true => exact Brings.bind (hkeeps.setter arguments result) fun _ ↦ hnotifies
  | false => exact hnotifies

theorem event_hasFunctions :
    Brings (fun _ ↦ True) Output.HasFunctions (m.event (.ofBudget cx budget) runtime) :=
  any_mapParams.bind fun arguments ↦ any_requireResult.bind fun result ↦
    notification_hasFunctions .event arguments result

theorem any_federated (ending : String) :
    Brings (fun _ ↦ True) (fun _ ↦ True) (Pull.federated (.ofBudget cx budget) m ending) :=
  let v : Visit := ⟨m.document,
    .ofKind (.reference (m.document.definitionRef (m.methodName ++ ending))),
    m.methodName ++ ending, m.path⟩
  (lasts_of_lasting lasting_true cx budget).mapValue (v := v) trivial

end Functions

end Emission

namespace MethodPlace

/-- Why nothing but a notice comes of a method: its signature cannot be determined, it is of a class
for which no functions are generated, or a pulled result is named nowhere. -/
inductive LeftOut (mappers : Mappers) (runtime : Runtime) (m : MethodPlace) (session : Session) :
    Diagnostic → Prop
  | undetermined {failure : Failure} {session' : Session} (hrecoverable : failure.isRecoverable)
      (h : m.body mappers runtime {} session = some (.error failure, session')) :
      LeftOut mappers runtime m session (.ofFailure failure)
  | notSupported (h : MethodClass.of m.method = .temporalSet) :
      LeftOut mappers runtime m session m.notSupported
  | missingResult (h : MethodClass.of m.method = .polymorphicPull)
      (hresult : m.method.param? "result" = none) :
      LeftOut mappers runtime m session (Pull.missingResult m)

open Emission

variable {cx : Context} {budget : Nat} {runtime : Runtime} {m : MethodPlace}

/-- The body of a method that succeeds has functions, unless the method is left out. -/
theorem body_hasFunctions {session session' : Session} {output : Output}
    (h : m.body (.ofBudget cx budget) runtime {} session = some (.ok ((), output), session')) :
    output.HasFunctions ∨ ∃ diagnostic, m.LeftOut (.ofBudget cx budget) runtime session diagnostic ∧
      output = .ofDiagnostic diagnostic := by
  have hbrings : ∀ {emission : Emission Unit}, Brings (fun _ ↦ True) Output.HasFunctions emission →
      emission {} session = some (.ok ((), output), session') → output.HasFunctions :=
    fun hemission hrun ↦ (hemission {} hrun trivial trivial).2.2
  unfold body at h
  cases hclass : MethodClass.of m.method with
  | property isSettable notifies =>
    rw [hclass] at h
    exact .inl (hbrings (property_hasFunctions isSettable notifies) h)
  | event =>
    rw [hclass] at h
    exact .inl (hbrings event_hasFunctions h)
  | polymorphicPull =>
    rw [hclass] at h
    change Pull.emit (.ofBudget cx budget) runtime m {} session = _ at h
    unfold Pull.emit at h
    cases hresult : m.method.param? "result" with
    | none =>
      rw [hresult] at h
      cases h
      exact .inr ⟨_, .missingResult hclass hresult, Output.addDiagnostic_empty _⟩
    | some result =>
      rw [hresult] at h
      exact .inl (hbrings ((any_federated _).bind fun _ ↦ (any_federated _).bind fun _ ↦
        emitFunctions_hasFunctions _ _) h)
  | polymorphicReducer =>
    rw [hclass] at h
    exact .inl (hbrings plain_hasFunctions h)
  | temporalSet =>
    rw [hclass] at h
    cases h
    exact .inr ⟨_, .notSupported hclass, Output.addDiagnostic_empty _⟩
  | plain =>
    rw [hclass] at h
    exact .inl (hbrings plain_hasFunctions h)

/-- The output of a method is what its body leads to, or a notice that it is left out. -/
theorem emit_eq_ok {mappers : Mappers} {session session' : Session} {output : Output}
    (h : m.emit mappers runtime session = some (.ok output, session')) :
    m.body mappers runtime {} session = some (.ok ((), output), session') ∨
      ∃ failure between, failure.isRecoverable = true ∧
        m.body mappers runtime {} session = some (.error failure, between) ∧
        output = .ofDiagnostic (.ofFailure failure) := by
  obtain ⟨found, between, hbody, hrest⟩ := attempt_bind_eq_ok.1 h
  cases found with
  | ok run =>
    cases hrest
    exact .inl hbody
  | error failure =>
    change (if failure.isRecoverable then _ else Mapping.fail failure : Mapping Output) _ = _
      at hrest
    split at hrest
    · cases hrest
      exact .inr ⟨failure, between, ‹_›, hbody, rfl⟩
    · cases hrest

theorem emit_hasFunctions {session session' : Session} {output : Output}
    (h : m.emit (.ofBudget cx budget) runtime session = some (.ok output, session')) :
    output.HasFunctions ∨ ∃ diagnostic, m.LeftOut (.ofBudget cx budget) runtime session diagnostic ∧
      output = .ofDiagnostic diagnostic := by
  obtain hbody | ⟨failure, between, hrecoverable, hbody, rfl⟩ := emit_eq_ok h
  · exact body_hasFunctions hbody
  · exact .inr ⟨_, .undetermined hrecoverable hbody, rfl⟩

/-- A method never fails for want of a type. -/
theorem emit_firm (m : MethodPlace) (cx : Context) (budget : Nat) (runtime : Runtime) :
    Firm (m.emit (.ofBudget cx budget) runtime) := by
  have hany := lasts_of_lasting lasting_true cx budget
  have hbody : Obeys freeRules (fun _ ↦ True) (m.body (.ofBudget cx budget) runtime {})
      fun _ _ ↦ True :=
    keeps_body hany (keeps_functions hany fun _ _ ↦ trivial) (fun _ _ ↦ trivial) {}
  refine Obeys.bind (hbody.attempt rfl) fun result ↦ ?_
  cases result with
  | ok run => exact obeys_pure fun _ _ _ ↦ trivial
  | error failure => exact obeys_ite_warn (fun _ _ _ _ ↦ trivial) fun hfirm _ _ ↦ hfirm

/-- How a method changes the output of its document: all that it is emitted to comes in, or nothing
but a notice. -/
inductive Changes (mappers : Mappers) (runtime : Runtime) (m : MethodPlace)
    (before after : Output) : Prop
  | emitted {session session' : Session} {emitted : Output}
      (hemit : m.emit mappers runtime session = some (.ok emitted, session'))
      (hfunctions : emitted.HasFunctions)
      (hmerge : (before.merge emitted m.path).toExcept = .ok after)
  | leftOut {session : Session} {diagnostic : Diagnostic}
      (h : m.LeftOut mappers runtime session diagnostic)
      (hafter : after = before.addDiagnostic diagnostic)

theorem Changes.diagnostics_subset {mappers : Mappers} {before after : Output}
    (h : m.Changes mappers runtime before after) : before.diagnostics ⊆ after.diagnostics := by
  intro diagnostic hmem
  cases h with
  | emitted _ _ hmerge =>
    rw [(Output.merge_eq_ok hmerge).1]
    exact mem_addAllNew.2 (.inl hmem)
  | leftOut _ hafter =>
    rw [hafter]
    exact mem_addNew.2 (.inl hmem)

end MethodPlace

/-! ## Documents -/

namespace Generate

open Emission

variable {cx : Context} {budget : Nat} {document : Document} {runtime : Runtime}

/-- A definition without a type is left out. -/
theorem mapDefinition_firm (name : String) :
    Keeps firmRules (fun _ _ ↦ True) (mapDefinition (.ofBudget cx budget) document name) := by
  let v : Visit := ⟨document, .ofKind (.reference (document.definitionRef name)), name,
    document.schemaPath (document.definitionRef name)⟩
  have hvalue : Establishes freeRules (fun _ _ ↦ True)
      (mapValue (.ofBudget cx budget) v.document v.node (v.request "")) :=
    (lasts_of_lasting lasting_true cx budget).mapValue trivial
  refine hvalue.attempt_bind rfl (fun _ ↦ keeps_pure ()) fun failure _ ↦ ?_
  change Keeps firmRules _ (if failure.isRecoverable then _ else _)
  split
  · exact keeps_warn.bind fun _ _ ↦ obeys_pure fun _ _ _ ↦ trivial
  · exact keeps_fail (Bool.eq_false_iff.2 ‹_›)

/-- A document never fails for want of a type. -/
theorem documentOutput_firm (library : Library) (settings : Settings) (document : Document)
    (budget : Nat) :
    Firm (documentOutput (.ofBudget ⟨library, settings.runtime⟩ budget) library settings
      document) := by
  let mappers := Mappers.ofBudget ⟨library, settings.runtime⟩ budget
  have hdefinitions : Keeps firmRules (fun _ _ ↦ True)
      ((standalone library settings document).forM (mapDefinition mappers document)) :=
    keeps_forM fun name _ ↦ mapDefinition_firm name
  have hadd : ∀ m : MethodPlace, m.Of document →
      Keeps firmRules (fun _ _ ↦ True) (addMethod mappers settings.runtime m) := fun m _ ↦
    keeps_addMethod (fun _ ↦ stable_true) (m.emit_firm _ budget settings.runtime) fun _ _ ↦
      firm_merge fun _ _ _ _ ↦ trivial
  have hmethods : Keeps firmRules (fun _ _ ↦ True)
      (addMethods mappers settings.runtime document 0 document.methods) :=
    keeps_addMethods hadd fun k method hmethod ↦ by rwa [Nat.zero_add]
  have hemitted := (hdefinitions.bind fun _ ↦ hmethods) {}
  exact hemitted.bind fun _ ↦ obeys_pure fun _ _ _ ↦ trivial

theorem addMethod_changes {m : MethodPlace} {output output' : Output} {session session' : Session}
    (h : addMethod (.ofBudget cx budget) runtime m output session =
      some (.ok ((), output'), session')) :
    m.Changes (.ofBudget cx budget) runtime output output' := by
  obtain ⟨⟨emitted, same⟩, between, hlift, hrest⟩ := bind_eq_ok.1 h
  obtain ⟨found, after, hemit, hpure⟩ := bind_eq_ok.1 hlift
  cases hpure
  obtain ⟨⟨merged, same⟩, last, hmerge, hset⟩ := bind_eq_ok.1 hrest
  cases hset
  obtain ⟨found, after, hfound, hpure⟩ := bind_eq_ok.1 hmerge
  cases hpure
  obtain ⟨hmerge, -⟩ := ofExcept_eq_ok.1 hfound
  obtain hfunctions | ⟨diagnostic, hleft, rfl⟩ := MethodPlace.emit_hasFunctions hemit
  · exact .emitted hemit hfunctions hmerge
  · rw [Output.merge_ofDiagnostic] at hmerge
    cases hmerge
    exact .leftOut hleft rfl

/-- Methods change the output one after the other. -/
theorem addMethods_changes {position : Nat} {methods : List Method} {output output' : Output}
    {session session' : Session}
    (h : addMethods (.ofBudget cx budget) runtime document position methods output session =
      some (.ok ((), output'), session')) :
    ∃ outputs : Nat → Output, outputs 0 = output ∧ outputs methods.length = output' ∧
      ∀ k method, methods[k]? = some method →
        MethodPlace.Changes (.ofBudget cx budget) runtime ⟨document, position + k, method⟩
          (outputs k) (outputs (k + 1)) := by
  induction methods generalizing position output session with
  | nil =>
    cases h
    exact ⟨fun _ ↦ _, rfl, rfl, nofun⟩
  | cons first rest ih =>
    obtain ⟨⟨⟨⟩, next⟩, between, hfirst, hrest⟩ := bind_eq_ok.1 h
    obtain ⟨outputs, hstart, hend, hchanges⟩ := ih hrest
    refine ⟨fun k ↦ k.casesOn output outputs, rfl, hend, fun k method hmethod ↦ ?_⟩
    cases k with
    | zero =>
      cases hmethod
      change MethodPlace.Changes _ _ _ output (outputs 0)
      rw [hstart]
      exact addMethod_changes hfirst
    | succ k =>
      have hlater := hchanges k method hmethod
      rwa [Nat.add_right_comm] at hlater

/-- Notices that are there stay. -/
theorem diagnostics_subset {mappers : Mappers} {methods : List Method} {outputs : Nat → Output}
    (h : ∀ k method, methods[k]? = some method →
      MethodPlace.Changes mappers runtime ⟨document, k, method⟩ (outputs k) (outputs (k + 1)))
    {k last : Nat} (hle : k ≤ last) (hlast : last ≤ methods.length) :
    (outputs k).diagnostics ⊆ (outputs last).diagnostics := by
  induction last, hle using Nat.le_induction with
  | base => exact List.Subset.refl _
  | succ last _ ih =>
    have hmethod : methods[last]? = some methods[last] := List.getElem?_eq_getElem hlast
    exact List.Subset.trans (ih (Nat.le_of_succ_le hlast)) (h last _ hmethod).diagnostics_subset

theorem documentOutput_changes {library : Library} {settings : Settings} {output : Output}
    {session session' : Session}
    (h : documentOutput (.ofBudget ⟨library, settings.runtime⟩ budget) library settings document
      session = some (.ok output, session')) :
    let mappers := Mappers.ofBudget ⟨library, settings.runtime⟩ budget
    ∃ (outputs : Nat → Output) (between : Session),
      ((standalone library settings document).forM (mapDefinition mappers document)).run {}
        session = some (.ok ((), outputs 0), between) ∧
      (∀ k method, document.methods[k]? = some method →
        MethodPlace.Changes mappers settings.runtime ⟨document, k, method⟩
          (outputs k) (outputs (k + 1))) ∧
      output = { outputs document.methods.length with
        externals := (outputs document.methods.length).externals.filter (· ≠ document.title) } := by
  obtain ⟨⟨⟨⟩, emitted⟩, last, hemitted, hpure⟩ := bind_eq_ok.1 h
  cases hpure
  obtain ⟨⟨⟨⟩, defined⟩, between, hdefinitions, hmethods⟩ := bind_eq_ok.1 hemitted
  obtain ⟨outputs, hstart, hend, hchanges⟩ := addMethods_changes hmethods
  refine ⟨outputs, between, ?_, fun k method hmethod ↦ ?_, ?_⟩
  · rw [hstart]
    exact hdefinitions
  · have hchange := hchanges k method hmethod
    rwa [Nat.zero_add] at hchange
  · rw [hend]

end Generate

/-- What becomes of a document is up to the output that is put together for it. -/
theorem Library.generateDocument_cases {library : Library} {settings : Settings}
    {document : Document} {run : DocumentRun}
    (h : library.generateDocument settings document = some run) :
    ∃ result session,
      Generate.documentOutput (.ofBudget ⟨library, settings.runtime⟩ Generate.budget) library
        settings document {} = some (result, session) ∧
      ((∃ output, result = .ok output ∧ run.status = .generated ∧ run.generated =
        some ⟨Files.assemble settings.runtime settings.headerText document output,
          output.diagnostics⟩) ∨
      ∃ failure, result = .error failure ∧ run.status = .failed failure ∧
        run.generated = none) := by
  dsimp only [generateDocument] at h
  split at h
  · cases h
  · cases h
    exact ⟨_, _, ‹_›, .inl ⟨_, rfl, rfl, rfl⟩⟩
  · cases h
    exact ⟨_, _, ‹_›, .inr ⟨_, rfl, rfl, rfl⟩⟩

/-- A document is never failed for want of a type, and methods are emitted wholly or not at all: in
every session, what a method comes to has prototypes and bodies of functions, or it is one notice
and nothing else. In the output of a document, a method that is left out has changed nothing but
that its notice is there, and this notice is one of the document's. -/
theorem Library.generateDocument_omits_whole_methods (library : Library) (settings : Settings)
    (document : Document) :
    (∀ run failure, library.generateDocument settings document = some run →
      run.status = .failed failure → failure.isRecoverable = false) ∧
    (∀ (m : MethodPlace) (budget : Nat) (session : Session) (output : Output) (session' : Session),
      m.emit (.ofBudget ⟨library, settings.runtime⟩ budget) settings.runtime session =
        some (.ok output, session') →
      output.HasFunctions ∨ ∃ diagnostic,
        m.LeftOut (.ofBudget ⟨library, settings.runtime⟩ budget) settings.runtime session
          diagnostic ∧ output = .ofDiagnostic diagnostic) ∧
    ∀ run generated, library.generateDocument settings document = some run →
      run.generated = some generated →
      let mappers := Mappers.ofBudget ⟨library, settings.runtime⟩ Generate.budget
      let methods := document.methods
      ∃ (outputs : Nat → Output) (session : Session),
        ((Generate.standalone library settings document).forM
          (Generate.mapDefinition mappers document)).run {} {} =
            some (.ok ((), outputs 0), session) ∧
        (∀ k method, methods[k]? = some method →
          MethodPlace.Changes mappers settings.runtime ⟨document, k, method⟩
            (outputs k) (outputs (k + 1)) ∧
          (outputs (k + 1)).diagnostics ⊆ generated.diagnostics) ∧
        generated.diagnostics = (outputs methods.length).diagnostics ∧
        generated.artifacts = Files.assemble settings.runtime settings.headerText document
          { outputs methods.length with
            externals := (outputs methods.length).externals.filter (· ≠ document.title) } := by
  refine ⟨fun run failure hrun hstatus ↦ ?_,
    fun m budget session output session' h ↦ MethodPlace.emit_hasFunctions h,
    fun run generated hrun hgenerated ↦ ?_⟩
  · obtain ⟨result, session, houtput, hcases⟩ := generateDocument_cases hrun
    obtain ⟨output, -, hgenerated, -⟩ | ⟨found, rfl, hfailed, -⟩ := hcases
    · rw [hgenerated] at hstatus
      cases hstatus
    · cases hfailed.symm.trans hstatus
      exact (Generate.documentOutput_firm library settings document _ houtput trivial trivial).2.2
  · obtain ⟨result, session, houtput, hcases⟩ := generateDocument_cases hrun
    obtain ⟨output, rfl, -, hresult⟩ | ⟨found, -, -, hnone⟩ := hcases
    · cases hresult.symm.trans hgenerated
      obtain ⟨outputs, between, hdefinitions, hchanges, rfl⟩ :=
        Generate.documentOutput_changes houtput
      refine ⟨outputs, between, hdefinitions, fun k method hmethod ↦
        ⟨hchanges k method hmethod, ?_⟩, rfl, rfl⟩
      obtain ⟨hlt, -⟩ := List.getElem?_eq_some_iff.1 hmethod
      exact Generate.diagnostics_subset hchanges hlt le_rfl
    · cases hnone.symm.trans hgenerated

namespace OmittedEvent

/-- The type of the event cannot be determined, but that of its parameter can. -/
def content : Json := .object [("$id", .string "Lamp"), ("title", .string "Lamp"),
  ("methods", .array [.object [("name", .string "changed"),
    ("tags", .array [.object [("name", .string "event")]]),
    ("params", .array [.object [("name", .string "mode"), ("schema", .object [
      ("type", .string "string"), ("enum", .array [.string "on", .string "off"])])]]),
    ("result", .object [("name", .string "value"), ("schema", .object [])])]])]

/-- The result of the method is a union. -/
def brokenContent : Json := .object [("$id", .string "Fan"), ("title", .string "Fan"),
  ("methods", .array [.object [("name", .string "speed"), ("params", .array []),
    ("result", .object [("name", .string "value"),
      ("schema", .object [("oneOf", .array [])])])]])]

theorem isSome_read : (Document.read content).toOption.isSome := by decide +kernel

theorem isSome_read_broken : (Document.read brokenContent).toOption.isSome := by decide +kernel

def document : Document := (Document.read content).toOption.get isSome_read

def broken : Document := (Document.read brokenContent).toOption.get isSome_read_broken

def library : Library := ⟨[document, broken]⟩

theorem methods_length : 0 < document.methods.length := by decide +kernel

def event : MethodPlace := ⟨document, 0, document.methods.get ⟨0, methods_length⟩⟩

def notice : Diagnostic := ⟨"Lamp#/methods/0/result/schema",
  "undetermined property type at Lamp#/methods/0/result/schema"⟩

theorem generated_notice : ((library.generateDocument {} document).any fun run ↦
    run.generated.any (·.diagnostics = [notice])) = true := by decide +kernel

theorem broken_failed : ((library.generateDocument {} broken).any fun run ↦
    run.status.failure?.isSome) = true := by decide +kernel

theorem emit_notice : ((event.emit (.ofBudget ⟨library, {}⟩ 8) {} {}).any fun ending ↦
    ending.1.toOption.any fun output ↦ output.diagnostics = [notice]) = true := by decide +kernel

/-- Nothing but the notice comes of the event. -/
theorem event_omitted :
    (∃ run failure, library.generateDocument {} broken = some run ∧
      run.status = .failed failure ∧ failure.isRecoverable = false) ∧
    (∃ output session, event.emit (.ofBudget ⟨library, {}⟩ 8) {} {} =
        some (.ok output, session) ∧ output.diagnostics = [notice] ∧
      (output.HasFunctions ∨ ∃ diagnostic,
        event.LeftOut (.ofBudget ⟨library, {}⟩ 8) {} {} diagnostic ∧
          output = .ofDiagnostic diagnostic)) ∧
    ∃ run generated, library.generateDocument {} document = some run ∧
      run.generated = some generated ∧ generated.diagnostics = [notice] ∧
      ∃ before after, event.Changes (.ofBudget ⟨library, {}⟩ Generate.budget) {} before after ∧
        after.diagnostics ⊆ [notice] := by
  refine ⟨?_, ?_, ?_⟩
  · obtain ⟨run, hrun, hfailed⟩ := (Option.any_eq_true _ _).1 broken_failed
    obtain ⟨failure, hfailure⟩ := Option.isSome_iff_exists.1 hfailed
    have hstatus : run.status = .failed failure := by
      cases hcase : run.status <;> rw [hcase] at hfailure <;> cases hfailure
      rfl
    exact ⟨run, failure, hrun, hstatus,
      (library.generateDocument_omits_whole_methods {} broken).1 run failure hrun hstatus⟩
  · obtain ⟨output, session, hemit, hnotice⟩ := exists_ok_of_any emit_notice
    exact ⟨output, session, hemit, of_decide_eq_true hnotice,
      (library.generateDocument_omits_whole_methods {} document).2.1 event 8 {} output session
        hemit⟩
  · obtain ⟨run, hrun, hgenerated⟩ := (Option.any_eq_true _ _).1 generated_notice
    obtain ⟨generated, hgenerated, hnotice⟩ := (Option.any_eq_true _ _).1 hgenerated
    have hnotice : generated.diagnostics = [notice] := of_decide_eq_true hnotice
    obtain ⟨outputs, session, -, hchanges, -⟩ :=
      (library.generateDocument_omits_whole_methods {} document).2.2 run generated hrun hgenerated
    obtain ⟨hchange, hsubset⟩ := hchanges 0 _ (List.getElem?_eq_getElem methods_length)
    rw [hnotice] at hsubset
    exact ⟨run, generated, hrun, hgenerated, hnotice, _, _, hchange, hsubset⟩

end OmittedEvent

end SchemaBindings
