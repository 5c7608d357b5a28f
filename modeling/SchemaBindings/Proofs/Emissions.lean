import SchemaBindings.Api.Emit
import SchemaBindings.Proofs.Roots
import SchemaBindings.Proofs.Rules

/-!
# Emissions

What emitting the methods of a document does to the output under construction. A property of
outputs lasts if it is kept by all that emissions are made of: notices, code of functions, and
types of schemas that are mapped. It is then kept by the emission of a method of any class.
-/

namespace SchemaBindings

open Code Mapping

variable {rules : Rules} {good : Registry → Output → Prop} {α β : Type}

theorem Mapping.free_ofExcept {before : Registry → Prop} {after : Registry → α → Prop}
    {result : Except Failure α}
    (h : ∀ value, result = .ok value → ∀ registry, before registry → after registry value) :
    Obeys freeRules before (ofExcept result) after :=
  obeys_ofExcept fun registry _ hstart ↦
    meets_of_allows (fun _ _ ↦ trivial) fun value hvalue ↦ h value hvalue registry hstart

/-- The emission leaves an output with the property behind if it starts with one. -/
def Emission.Keeps (rules : Rules) (good : Registry → Output → Prop) (emission : Emission α) :
    Prop :=
  ∀ output, Obeys rules (fun registry ↦ good registry output) (emission output)
    fun registry run ↦ good registry run.2

namespace Emission

theorem keeps_pure (value : α) : Keeps rules good (pure value) :=
  fun _ ↦ obeys_pure fun _ _ h ↦ h

theorem Keeps.bind {emission : Emission α} {next : α → Emission β} (h : Keeps rules good emission)
    (hnext : ∀ value, Keeps rules good (next value)) : Keeps rules good (emission >>= next) :=
  fun output ↦ (h output).bind fun run ↦ hnext run.1 run.2

theorem keeps_fail {failure : Failure} (h : rules.allows failure) :
    Keeps rules good (fail failure : Emission α) := by
  intro output
  have hfail : Obeys rules (fun registry ↦ good registry output)
      (Mapping.fail failure : Mapping α) fun _ _ ↦ False := obeys_fail fun _ _ ↦ h
  exact hfail.bind fun _ ↦ obeys_pure fun _ _ hfalse ↦ hfalse.elim

theorem get_bind (next : Output → Emission α) (output : Output) :
    ((get : Emission Output) >>= next) output = next output output := rfl

/-- A mapping that runs inside of an emission leaves the output alone. -/
theorem lift_bind {rules : Rules} {before : Registry → Prop} {after : Registry → α → Prop}
    {last : Registry → β × Output → Prop} {mapping : Mapping α}
    (h : Obeys rules before mapping after) {next : α → Emission β} {output : Output}
    (hnext : ∀ value, Obeys rules (fun registry ↦ after registry value) (next value output) last) :
    Obeys rules before (((StateT.lift mapping : Emission α) >>= next) output) last := by
  have hlift : Obeys rules before ((StateT.lift mapping : Emission α) output)
      fun registry run ↦ after registry run.1 ∧ run.2 = output :=
    h.bind fun value ↦ obeys_pure fun _ _ hvalue ↦ ⟨hvalue, rfl⟩
  refine hlift.bind fun run session result session' hrun hholds hstart ↦ ?_
  obtain ⟨value, output'⟩ := run
  obtain ⟨hvalue, rfl⟩ := hstart
  exact hnext value hrun hholds hvalue

theorem keeps_warn : Keeps rules good (StateT.lift Mapping.warn) :=
  fun _ ↦ obeys_warn.bind fun _ ↦ obeys_pure fun _ _ h ↦ h

/-- What cannot be left out stops the emission. -/
theorem Keeps.attempt_bind {emission : Emission α} {next : Except Failure α → Emission β}
    (h : Keeps rules good emission) (hstable : ∀ output, Stable fun registry ↦ good registry output)
    (hok : ∀ value, Keeps rules good (next (.ok value)))
    (herror : ∀ failure, rules.allows failure → Keeps rules good (next (.error failure))) :
    Keeps rules good (attempt emission >>= next) := by
  intro output
  have hattempt : Obeys rules (fun registry ↦ good registry output) (attempt emission output)
      fun registry run ↦ good registry run.2 ∧
        ∀ failure, run.1 = .error failure → rules.allows failure := by
    have hkept := (((h output).attempt rfl).frame (hstable output)).imp
      (fun _ hstart ↦ ⟨hstart, hstart⟩) fun _ _ hend ↦ hend
    refine hkept.bind fun result ↦ ?_
    cases result with
    | ok run => exact obeys_pure fun _ _ hstart ↦ ⟨hstart.1, nofun⟩
    | error failure =>
      refine obeys_pure fun _ _ hstart ↦ ⟨hstart.2, ?_⟩
      rintro _ ⟨⟩
      exact hstart.1
  refine hattempt.bind fun run ↦ ?_
  obtain ⟨result, output'⟩ := run
  cases result with
  | ok value => exact (hok value output').imp (fun _ hstart ↦ hstart.1) fun _ _ hend ↦ hend
  | error failure =>
    intro session found session' hrun hholds hstart
    exact herror failure (hstart.2 failure rfl) output' hrun hholds hstart.1

theorem keeps_forM {step : α → Emission Unit} {xs : List α}
    (h : ∀ x ∈ xs, Keeps rules good (step x)) : Keeps rules good (xs.forM step) := by
  induction xs with
  | nil => exact keeps_pure ()
  | cons x rest ih =>
    exact (h x (.head rest)).bind fun _ ↦ ih fun other hother ↦ h other (.tail x hother)

/-- The property looks at code and at the titles of other documents only, and is kept by code of
functions and by the types of the schemas that are mapped. -/
structure Lasts (rules : Rules) (good : Registry → Output → Prop) (isFunction : String → Prop)
    (mappers : Mappers) (maps : Visit → String → Prop) : Prop where
  stable : ∀ output, Stable fun registry ↦ good registry output
  allows : ∀ {failure}, failure.isCollision = false → rules.allows failure
  congr : ∀ {registry output other}, good registry output →
    (∀ place, other.get place = output.get place) → other.externals = output.externals →
      good registry other
  insert : ∀ {place symbol}, place ∈ [Section.prototypes, .implementations] → isFunction symbol →
    ∀ pieces path, Keeps rules good (insert place symbol pieces path)
  mapValue : ∀ {v scope}, maps v scope →
    Keeps rules good (mapValue mappers v.document v.node (v.request scope))

section Allowing

variable (hallows : ∀ failure, rules.allows failure)
include hallows

theorem allowing_ofExcept_bind (result : Except Failure α) {next : α → Emission β}
    (h : ∀ value, Keeps rules (fun _ _ ↦ True) (next value)) :
    Keeps rules (fun _ _ ↦ True) (ofExcept result >>= next) := by
  intro output
  have hresult : Obeys rules (fun _ ↦ True) (Mapping.ofExcept result) fun _ _ ↦ True :=
    obeys_ofExcept fun _ _ _ ↦ meets_of_allows (fun failure _ ↦ hallows failure) fun _ _ ↦ trivial
  exact lift_bind hresult fun value ↦ h value output

/-- Where all failures are allowed, only what mappers do to the registry matters. -/
theorem lasts_of_allowing {mappers : Mappers} {maps : Visit → String → Prop}
    (hnative : ∀ v scope, maps v scope → Obeys rules (fun _ ↦ True)
      (mappers.native v.document v.node (v.request scope)) fun _ _ ↦ True)
    (hwire : ∀ v scope, maps v scope → Obeys rules (fun _ ↦ True)
      (mappers.wire v.document v.node (v.request scope)) fun _ _ ↦ True) :
    Lasts rules (fun _ _ ↦ True) (fun _ ↦ True) mappers maps := by
  have hset : ∀ output : Output, Keeps rules (fun _ _ ↦ True) (set output : Emission PUnit) :=
    fun _ _ ↦ obeys_pure fun _ _ _ ↦ trivial
  refine ⟨fun _ _ _ _ _ ↦ trivial, fun _ ↦ hallows _, fun _ _ _ ↦ trivial, ?_, ?_⟩
  · intro place symbol _ _ pieces path output
    unfold insert
    rw [get_bind]
    exact allowing_ofExcept_bind hallows _ hset output
  · intro v scope hv output
    refine lift_bind (hnative v scope hv) fun native ↦ ?_
    refine lift_bind (hwire v scope hv) fun wire ↦ ?_
    rw [get_bind]
    exact allowing_ofExcept_bind hallows _ (fun between ↦ allowing_ofExcept_bind hallows _
      fun last ↦ (hset last).bind fun _ ↦ keeps_pure native) output

end Allowing

/-- The property is kept by the code of all functions that a method may have. -/
structure KeepsFunctions (rules : Rules) (good : Registry → Output → Prop) (mappers : Mappers)
    (runtime : Runtime) (m : MethodPlace) : Prop where
  plain : ∀ method ∈ [m.method, m.method.reduced],
    Keeps rules good (mapParams mappers { m with method := method } 0 method.params) →
      Keeps rules good (mapResult mappers { m with method := method }) →
        Keeps rules good (Call.plain mappers runtime { m with method := method })
  getter : ∀ arguments result, Keeps rules good (Call.getter runtime m arguments result)
  setter : ∀ arguments result, Keeps rules good (Call.setter runtime m arguments result)
  notification : ∀ kind arguments result,
    Keeps rules good (Notification.emit runtime m kind arguments result)
  pulled : ∀ response request, Keeps rules good (Pull.emitFunctions runtime m response request)

variable {isFunction : String → Prop} {mappers : Mappers} {maps : Visit → String → Prop}
  (hlasts : Lasts rules good isFunction mappers maps)
include hlasts

theorem keeps_addDiagnostic (diagnostic : Diagnostic) :
    Keeps rules good (addDiagnostic diagnostic) :=
  fun output ↦ obeys_pure fun _ _ h ↦
    hlasts.congr h (Output.get_addDiagnostic output diagnostic) rfl

variable {m : MethodPlace}

theorem keeps_mapParams {position : Nat} {params : List Param}
    (h : ∀ k param, params[k]? = some param → maps
      ⟨m.document, param.schema, param.name, s!"{m.path}/params/{position + k}/schema"⟩
      m.methodName) :
    Keeps rules good (mapParams mappers m position params) := by
  induction params generalizing position with
  | nil => exact keeps_pure []
  | cons param rest ih =>
    have hrest := @ih (position + 1) fun k found hfound ↦ by
      rw [Nat.add_right_comm]
      exact h (k + 1) found hfound
    refine (hlasts.mapValue (h 0 param rfl)).attempt_bind hlasts.stable
      (fun type ↦ hrest.bind fun _ ↦ keeps_pure _) fun failure hfailure ↦ ?_
    change Keeps rules good (if failure.isRecoverable then _ else _)
    split
    · exact keeps_warn.bind fun _ ↦ (keeps_addDiagnostic hlasts _).bind fun _ ↦ hrest
    · exact keeps_fail hfailure

theorem keeps_mapResult (h : ∀ result, m.method.result = some result → maps
      ⟨m.document, result.schema, result.name, s!"{m.path}/result/schema"⟩ m.methodName) :
    Keeps rules good (mapResult mappers m) := by
  unfold mapResult
  split
  · exact keeps_pure none
  · exact (hlasts.mapValue (h _ ‹_›)).bind fun _ ↦ keeps_pure _

theorem keeps_requireResult (h : ∀ result, m.method.result = some result → maps
      ⟨m.document, result.schema, result.name, s!"{m.path}/result/schema"⟩ m.methodName) :
    Keeps rules good (requireResult mappers m) := by
  refine (keeps_mapResult hlasts h).bind fun result ↦ ?_
  cases result with
  | some result => exact keeps_pure result
  | none => exact keeps_fail (hlasts.allows rfl)

variable {runtime : Runtime}

section Functions

variable (hfunctions : ∀ symbol ∈ m.functions runtime, isFunction symbol)
include hfunctions

theorem keeps_metricsJob : Keeps rules good (metricsJob runtime m) := by
  unfold metricsJob
  split
  · have hdispatcher : isFunction
        (Text.capitalize runtime.metricsModule ++ "_" ++ m.methodName ++ "Dispatcher") :=
      hfunctions _ (by simp [MethodPlace.functions])
    have hmodify : Keeps rules good
        (modify fun output ↦ { output with usesMetrics := true }) :=
      fun _ ↦ obeys_pure fun _ _ h ↦ hlasts.congr h (fun place ↦ by cases place <;> rfl) rfl
    exact hmodify.bind fun _ ↦
      (hlasts.insert (by decide) hdispatcher _ _).bind fun _ ↦ keeps_pure _
  · exact keeps_pure []

theorem keeps_plain (hparams : Keeps rules good (mapParams mappers m 0 m.method.params))
    (hresult : Keeps rules good (mapResult mappers m)) :
    Keeps rules good (Call.plain mappers runtime m) := by
  have hname : isFunction (m.moduleName ++ "_" ++ m.methodName) :=
    hfunctions _ (by simp [MethodPlace.functions])
  exact hparams.bind fun _ ↦ hresult.bind fun _ ↦
    (hlasts.insert (by decide) hname _ _).bind fun _ ↦
    (keeps_metricsJob hlasts hfunctions).bind fun _ ↦ hlasts.insert (by decide) hname _ _

theorem keeps_getter (arguments : List Argument) (result : ResultValue) :
    Keeps rules good (Call.getter runtime m arguments result) := by
  have hname : isFunction (m.moduleName ++ "_Get" ++ m.methodName) :=
    hfunctions _ (by simp [MethodPlace.functions])
  exact (hlasts.insert (by decide) hname _ _).bind fun _ ↦
    (keeps_metricsJob hlasts hfunctions).bind fun _ ↦ hlasts.insert (by decide) hname _ _

theorem keeps_setter (arguments : List Argument) (result : ResultValue) :
    Keeps rules good (Call.setter runtime m arguments result) := by
  have hname : isFunction (m.moduleName ++ "_Set" ++ m.methodName) :=
    hfunctions _ (by simp [MethodPlace.functions])
  exact (hlasts.insert (by decide) hname _ _).bind fun _ ↦
    (keeps_metricsJob hlasts hfunctions).bind fun _ ↦ hlasts.insert (by decide) hname _ _

theorem keeps_notification (kind : NotificationKind) (arguments : List Argument)
    (result : ResultValue) :
    Keeps rules good (Notification.emit runtime m kind arguments result) := by
  have hcallback : isFunction (Notification.callbackName m kind) :=
    hfunctions _ (by cases kind <;> simp [MethodPlace.functions])
  have hregister : isFunction (m.moduleName ++ "_Register_" ++ m.methodName ++ "Update") :=
    hfunctions _ (by simp [MethodPlace.functions])
  have htrampoline : isFunction (Notification.trampolineName m) :=
    hfunctions _ (by simp [MethodPlace.functions])
  exact (hlasts.insert (by decide) hcallback _ _).bind fun _ ↦
    (hlasts.insert (by decide) hregister _ _).bind fun _ ↦
    (hlasts.insert (by decide) htrampoline _ _).bind fun _ ↦
    hlasts.insert (by decide) hregister _ _

theorem keeps_emitFunctions (response request : NativeType) :
    Keeps rules good (Pull.emitFunctions runtime m response request) := by
  have hpush : isFunction (m.moduleName ++ "_Push" ++ m.methodName) :=
    hfunctions _ (by simp [MethodPlace.functions])
  have hcallback : isFunction (Pull.callbackName m) :=
    hfunctions _ (by simp [MethodPlace.functions])
  have hregister : isFunction (m.moduleName ++ "_Register_" ++ m.methodName ++ "Pull") :=
    hfunctions _ (by simp [MethodPlace.functions])
  have htrampoline : isFunction (Notification.trampolineName m) :=
    hfunctions _ (by simp [MethodPlace.functions])
  exact (hlasts.insert (by decide) hpush _ _).bind fun _ ↦
    (keeps_metricsJob hlasts hfunctions).bind fun _ ↦
    (hlasts.insert (by decide) hpush _ _).bind fun _ ↦
    (hlasts.insert (by decide) hcallback _ _).bind fun _ ↦
    (hlasts.insert (by decide) hregister _ _).bind fun _ ↦
    (hlasts.insert (by decide) htrampoline _ _).bind fun _ ↦
    hlasts.insert (by decide) hregister _ _

theorem keeps_functions : KeepsFunctions rules good mappers runtime m where
  plain method hmethod hparams hresult := by
    have hnames : ∀ symbol ∈ ({ m with method := method } : MethodPlace).functions runtime,
        isFunction symbol := by
      simp only [List.mem_cons, List.not_mem_nil, or_false] at hmethod
      obtain rfl | rfl := hmethod <;> exact hfunctions
    exact keeps_plain hlasts hnames hparams hresult
  getter := keeps_getter hlasts hfunctions
  setter := keeps_setter hlasts hfunctions
  notification := keeps_notification hlasts hfunctions
  pulled := keeps_emitFunctions hlasts hfunctions

end Functions

variable (hfunctions : KeepsFunctions rules good mappers runtime m)
include hfunctions

/-- The body of a method of any class. -/
theorem keeps_body (hschemas : ∀ v, m.Schemas v → maps v m.scope) :
    Keeps rules good (m.body mappers runtime) := by
  have hparams : ∀ {params}, m.params? = some params → ∀ k param, params[k]? = some param →
      maps ⟨m.document, param.schema, param.name, s!"{m.path}/params/{0 + k}/schema"⟩
        m.methodName := by
    intro params hparams k param hparam
    rw [Nat.zero_add, ← MethodPlace.scope_eq hparams]
    exact hschemas _ (.param hparams hparam)
  have hresult : ∀ {params}, m.params? = some params → ∀ result, m.method.result = some result →
      maps ⟨m.document, result.schema, result.name, s!"{m.path}/result/schema"⟩
        m.methodName := by
    intro params hparams result h
    rw [← MethodPlace.scope_eq hparams]
    exact hschemas _ (.result hparams h)
  unfold MethodPlace.params? at hparams hresult
  unfold MethodPlace.body
  split
  case h_1 isSettable notifies hclass =>
    rw [hclass] at hparams hresult
    refine (keeps_mapParams hlasts (hparams rfl)).bind fun arguments ↦
      (keeps_requireResult hlasts (hresult rfl)).bind fun result ↦
      (hfunctions.getter arguments result).bind fun _ ↦ ?_
    have hnotifies : Keeps rules good (if notifies then
        Notification.emit runtime m .propertyChanged arguments result else pure ()) := by
      split
      · exact hfunctions.notification _ arguments result
      · exact keeps_pure ()
    cases isSettable with
    | true => exact (hfunctions.setter arguments result).bind fun _ ↦ hnotifies
    | false => exact hnotifies
  case h_2 hclass =>
    rw [hclass] at hparams hresult
    exact (keeps_mapParams hlasts (hparams rfl)).bind fun arguments ↦
      (keeps_requireResult hlasts (hresult rfl)).bind fun result ↦
      hfunctions.notification .event arguments result
  case h_3 hclass =>
    unfold Pull.emit
    split
    · exact keeps_warn.bind fun _ ↦ keeps_addDiagnostic hlasts _
    · have hfederated : ∀ ending ∈ ["FederatedResponse", "FederatedRequest"],
          Keeps rules good (Pull.federated mappers m ending) := by
        intro ending h
        have hmaps := hschemas _ (.federated hclass h)
        rw [MethodPlace.scope_of_pull hclass] at hmaps
        exact hlasts.mapValue hmaps
      exact (hfederated _ (.head _)).bind fun response ↦
        (hfederated _ (.tail _ (.head _))).bind fun request ↦
        hfunctions.pulled response request
  case h_4 hclass =>
    rw [hclass] at hparams hresult
    exact hfunctions.plain _ (.tail _ (.head _)) (keeps_mapParams hlasts (hparams rfl))
      (keeps_mapResult hlasts (hresult rfl))
  case h_5 => exact keeps_warn.bind fun _ ↦ keeps_addDiagnostic hlasts _
  case h_6 hclass =>
    rw [hclass] at hparams hresult
    exact hfunctions.plain _ (.head _) (keeps_mapParams hlasts (hparams rfl))
      (keeps_mapResult hlasts (hresult rfl))

/-- What a method is emitted to has the property if the empty output has it. -/
theorem emit_obeys (hempty : ∀ registry output, (∀ place, output.get place = {}) →
      output.externals = [] → good registry output) (hschemas : ∀ v, m.Schemas v → maps v m.scope) :
    Obeys rules (fun _ ↦ True) (m.emit mappers runtime) good := by
  have hbody : Obeys rules (fun _ ↦ True) (m.body mappers runtime {})
      fun registry run ↦ good registry run.2 :=
    (keeps_body hlasts hfunctions hschemas {}).imp
      (fun registry _ ↦ hempty registry {} (fun place ↦ by cases place <;> rfl) rfl)
      fun _ _ hend ↦ hend
  refine (hbody.attempt rfl).bind fun result ↦ ?_
  cases result with
  | ok run => exact obeys_pure fun _ _ hstart ↦ hstart
  | error failure =>
    exact obeys_ite_warn
      (fun _ registry _ _ ↦ hempty registry _ (fun place ↦ by cases place <;> rfl) rfl)
      fun _ _ hstart ↦ hstart

end Emission

/-! ## Documents -/

namespace Generate

open Emission

variable {document : Document} {mappers : Mappers} {runtime : Runtime}

theorem keeps_mapDefinition {isFunction : String → Prop} {maps : Visit → String → Prop}
    (hlasts : Lasts rules good isFunction mappers maps) {name : String}
    (h : maps ⟨document, .ofKind (.reference (document.definitionRef name)), name,
      document.schemaPath (document.definitionRef name)⟩ "") :
    Keeps rules good (mapDefinition mappers document name) := by
  refine (hlasts.mapValue h).attempt_bind hlasts.stable (fun _ ↦ keeps_pure ())
    fun failure hfailure ↦ ?_
  change Keeps rules good (if failure.isRecoverable then _ else _)
  split
  · exact keeps_warn.bind fun _ ↦ keeps_addDiagnostic hlasts _
  · exact keeps_fail hfailure

/-- The output of a method comes in. -/
theorem keeps_addMethod {good' : Registry → Output → Prop} {m : MethodPlace}
    (hstable : ∀ output, Stable fun registry ↦ good registry output)
    (hemit : Obeys rules (fun _ ↦ True) (m.emit mappers runtime) good')
    (hmerge : ∀ output emitted, Obeys rules
      (fun registry ↦ good' registry emitted ∧ good registry output)
      (Mapping.ofExcept (output.merge emitted m.path).toExcept) good) :
    Keeps rules good (addMethod mappers runtime m) := by
  intro output
  refine lift_bind (hemit.keep (hstable output)) fun emitted ↦ ?_
  rw [get_bind]
  exact lift_bind (hmerge output emitted) fun output ↦ obeys_pure fun _ _ hstart ↦ hstart

theorem keeps_addMethods
    (hadd : ∀ m : MethodPlace, m.Of document → Keeps rules good (addMethod mappers runtime m))
    {position : Nat} {methods : List Method}
    (h : ∀ k method, methods[k]? = some method →
      document.methods[position + k]? = some method) :
    Keeps rules good (addMethods mappers runtime document position methods) := by
  induction methods generalizing position with
  | nil => exact keeps_pure ()
  | cons method rest ih =>
    refine (hadd ⟨document, position, method⟩ ⟨rfl, h 0 method rfl⟩).bind fun _ ↦ ih ?_
    intro k found hfound
    rw [Nat.add_right_comm]
    exact h (k + 1) found hfound

end Generate

end SchemaBindings
