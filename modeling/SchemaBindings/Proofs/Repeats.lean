import SchemaBindings.Output.Generate
import SchemaBindings.Proofs.Budget
import SchemaBindings.Proofs.Replay

/-!
# Emitting a second time

The emission of a method changes its session by mapping schemas and by nothing else, so it gives
back the chain of references, and once the stems of a first emission are known, a second one ends
in the same way. It may have more budget than the first.
-/

namespace SchemaBindings

open Mapping

variable {α β : Type} {library : Library}

/-- More budget makes no difference. -/
theorem Mapping.Replays.refines {first second third : Mapping α}
    (h : Mapping.Replays library first second) (hrefines : second.Refines third)
    (hclaims : third.Claims library fun _ _ ↦ True) : Mapping.Replays library first third where
  first_claims := h.first_claims
  second_claims := hclaims
  replay hrun hextends hrejoins := by
    obtain ⟨later', hlater⟩ := h.replay hrun hextends hrejoins
    exact ⟨later', hrefines _ _ hlater⟩

/-- Mappers of both sides come to the same types a second time. -/
structure Mappers.Replay (library : Library) (first second : Mappers) : Prop where
  native : ∀ document node request,
    Mapping.Replays library (first.native document node request)
      (second.native document node request)
  wire : ∀ document node request,
    Mapping.Replays library (first.wire document node request)
      (second.wire document node request)

theorem Mappers.replay_ofBudget (cx : Context) {budget budget' : Nat} (h : budget ≤ budget') :
    Mappers.Replay cx.library (.ofBudget cx budget) (.ofBudget cx budget') where
  native document node request :=
    (Native.map_replays cx budget document node request.name request.scope request.scope
      request.path).refines (Native.map_refines cx h document node request)
      (Native.map_claims_any cx budget' document node request)
  wire document node request :=
    (Wire.map_replays cx budget document node request.name request.scope request.scope
      request.path).refines (Wire.map_refines cx h document node request)
      (Wire.map_claims_any cx budget' document node request)

namespace Emission

/-- From every output the second emission ends as the first one has ended. -/
def Replays (library : Library) (first second : Emission α) : Prop :=
  ∀ output, Mapping.Replays library (first output) (second output)

theorem replays_pure (value : α) : Replays library (pure value) (pure value) :=
  fun _ ↦ Mapping.replays_pure _

theorem Replays.bind {first second : Emission α} {next next' : α → Emission β}
    (h : Replays library first second)
    (hnext : ∀ value, Replays library (next value) (next' value)) :
    Replays library (first >>= next) (second >>= next') :=
  fun output ↦ (h output).bind fun run ↦ hnext run.1 run.2

theorem replays_lift {first second : Mapping α} (h : Mapping.Replays library first second) :
    Replays library (StateT.lift first) (StateT.lift second) :=
  fun _ ↦ h.bind fun _ ↦ Mapping.replays_pure _

theorem replays_fail (failure : Failure) :
    Replays library (fail failure : Emission α) (fail failure) :=
  replays_lift (Mapping.replays_fail failure)

theorem replays_ofExcept (result : Except Failure α) :
    Replays library (ofExcept result) (ofExcept result) :=
  replays_lift (Mapping.replays_ofExcept result)

theorem replays_warn : Replays library (StateT.lift Mapping.warn) (StateT.lift Mapping.warn) :=
  replays_lift Mapping.replays_warn

theorem replays_get : Replays library get get :=
  fun _ ↦ Mapping.replays_pure _

theorem replays_set (output : Output) : Replays library (set output) (set output) :=
  fun _ ↦ Mapping.replays_pure _

theorem replays_modify (change : Output → Output) :
    Replays library (modify change) (modify change) :=
  fun _ ↦ Mapping.replays_pure _

theorem replays_insert (place : Section) (symbol : String) (pieces : List Code.Piece)
    (path : String) :
    Replays library (insert place symbol pieces path) (insert place symbol pieces path) :=
  replays_get.bind fun _ ↦ (replays_ofExcept _).bind replays_set

theorem run_attempt_bind (emission : Emission α) (next : Except Failure α → Emission β)
    (output : Output) :
    (attempt emission >>= next) output = Mapping.attempt (emission output) >>= fun
      | .ok (value, output) => next (.ok value) output
      | .error failure => next (.error failure) output := by
  change (Mapping.attempt (emission output) >>= _) >>= _ = _
  rw [bind_assoc]
  congr 1
  funext result
  cases result <;> rfl

/-- A cycle is not left out. -/
theorem Replays.attempt_bind {first second : Emission α}
    {next next' : Except Failure α → Emission β} (h : Replays library first second)
    (hnext : ∀ result, Replays library (next result) (next' result))
    (hcyclic : ∀ failure, failure.isCyclic → next (.error failure) = fail failure) :
    Replays library (attempt first >>= next) (attempt second >>= next') := by
  intro output
  rw [run_attempt_bind, run_attempt_bind]
  refine (h output).attempt_bind (fun result ↦ ?_) fun failure hfailure ↦ ?_
  · cases result with
    | ok run => exact hnext (.ok run.1) run.2
    | error failure => exact hnext (.error failure) output
  · dsimp only
    rw [hcyclic failure hfailure]
    rfl

/-- A failure that is passed over, if it may be. -/
theorem replays_ite_recoverable {failure : Failure} {first second : Emission α}
    (h : Replays library first second) :
    Replays library (if failure.isRecoverable then first else fail failure)
      (if failure.isRecoverable then second else fail failure) := by
  split
  · exact h
  · exact replays_fail failure

theorem ite_of_isCyclic {failure : Failure} (h : failure.isCyclic) (passedOver : Emission α) :
    (if failure.isRecoverable then passedOver else fail failure) = fail failure :=
  if_neg (by simp [Failure.isRecoverable_of_isCyclic h])

theorem replays_addDiagnostic (diagnostic : Diagnostic) :
    Replays library (addDiagnostic diagnostic) (addDiagnostic diagnostic) :=
  replays_modify _

/-! ## Functions -/

section Functions

variable (runtime : Runtime) (m : MethodPlace)

theorem replays_metricsJob : Replays library (metricsJob runtime m) (metricsJob runtime m) := by
  unfold metricsJob
  split
  · exact (replays_modify _).bind fun _ ↦ (replays_insert _ _ _ _).bind fun _ ↦ replays_pure _
  · exact replays_pure []

/-- A prototype and a body, and the report of calls to the metrics module between them. -/
theorem replays_function {next : Code.Lines → Emission α} (prototype : Code.Signature)
    (h : ∀ metrics, Replays library (next metrics) (next metrics)) :
    Replays library
      (Call.addPrototype m prototype >>= fun _ ↦ metricsJob runtime m >>= next)
      (Call.addPrototype m prototype >>= fun _ ↦ metricsJob runtime m >>= next) :=
  (replays_insert _ _ _ _).bind fun _ ↦ (replays_metricsJob runtime m).bind h

theorem replays_getter (arguments : List Argument) (result : ResultValue) :
    Replays library (Call.getter runtime m arguments result)
      (Call.getter runtime m arguments result) :=
  replays_function runtime m _ fun _ ↦ replays_insert _ _ _ _

theorem replays_setter (arguments : List Argument) (result : ResultValue) :
    Replays library (Call.setter runtime m arguments result)
      (Call.setter runtime m arguments result) :=
  replays_function runtime m _ fun _ ↦ replays_insert _ _ _ _

theorem replays_notification (kind : NotificationKind) (arguments : List Argument)
    (result : ResultValue) :
    Replays library (Notification.emit runtime m kind arguments result)
      (Notification.emit runtime m kind arguments result) :=
  (replays_insert _ _ _ _).bind fun _ ↦ (replays_insert _ _ _ _).bind fun _ ↦
    (replays_insert _ _ _ _).bind fun _ ↦ replays_insert _ _ _ _

theorem replays_emitFunctions (response request : NativeType) :
    Replays library (Pull.emitFunctions runtime m response request)
      (Pull.emitFunctions runtime m response request) :=
  replays_function runtime m _ fun _ ↦ (replays_insert _ _ _ _).bind fun _ ↦
    (replays_insert _ _ _ _).bind fun _ ↦ (replays_insert _ _ _ _).bind fun _ ↦
    (replays_insert _ _ _ _).bind fun _ ↦ replays_insert _ _ _ _

end Functions

/-! ## Methods -/

section Methods

variable {mappers mappers' : Mappers} (h : mappers.Replay library mappers')
include h

theorem replays_mapValue (document : Document) (node : Node) (request : Request) :
    Replays library (mapValue mappers document node request)
      (mapValue mappers' document node request) :=
  (replays_lift (h.native document node request)).bind fun _ ↦
    (replays_lift (h.wire document node request)).bind fun _ ↦ replays_get.bind fun _ ↦
    (replays_ofExcept _).bind fun _ ↦ (replays_ofExcept _).bind fun _ ↦
    (replays_set _).bind fun _ ↦ replays_pure _

variable (runtime : Runtime) (m : MethodPlace)

theorem replays_mapParams (position : Nat) (params : List Param) :
    Replays library (mapParams mappers m position params)
      (mapParams mappers' m position params) := by
  induction params generalizing position with
  | nil => exact replays_pure []
  | cons param rest ih =>
    refine (replays_mapValue h _ _ _).attempt_bind (fun mapped ↦ ?_)
      fun failure hcyclic ↦ ite_of_isCyclic hcyclic _
    cases mapped with
    | ok type => exact (ih (position + 1)).bind fun _ ↦ replays_pure _
    | error failure =>
      exact replays_ite_recoverable (replays_warn.bind fun _ ↦
        (replays_addDiagnostic _).bind fun _ ↦ ih (position + 1))

theorem replays_mapResult : Replays library (mapResult mappers m) (mapResult mappers' m) := by
  unfold mapResult
  split
  · exact replays_pure none
  · exact (replays_mapValue h _ _ _).bind fun _ ↦ replays_pure _

theorem replays_requireResult :
    Replays library (requireResult mappers m) (requireResult mappers' m) := by
  refine (replays_mapResult h m).bind fun result ↦ ?_
  cases result with
  | some result => exact replays_pure result
  | none => exact replays_fail _

theorem replays_plain :
    Replays library (Call.plain mappers runtime m) (Call.plain mappers' runtime m) :=
  (replays_mapParams h m _ _).bind fun _ ↦ (replays_mapResult h m).bind fun _ ↦
    replays_function runtime m _ fun _ ↦ replays_insert _ _ _ _

theorem replays_pull :
    Replays library (Pull.emit mappers runtime m) (Pull.emit mappers' runtime m) := by
  unfold Pull.emit
  split
  · exact replays_warn.bind fun _ ↦ replays_addDiagnostic _
  · exact (replays_mapValue h _ _ _).bind fun _ ↦ (replays_mapValue h _ _ _).bind fun _ ↦
      replays_emitFunctions runtime m _ _

theorem replays_property (isSettable notifies : Bool) :
    Replays library (m.property mappers runtime isSettable notifies)
      (m.property mappers' runtime isSettable notifies) := by
  refine (replays_mapParams h m _ _).bind fun arguments ↦ (replays_requireResult h m).bind
    fun result ↦ (replays_getter runtime m _ _).bind fun _ ↦ ?_
  have hnotifies : Replays library
      (if notifies then Notification.emit runtime m .propertyChanged arguments result else pure ())
      (if notifies then Notification.emit runtime m .propertyChanged arguments result
        else pure ()) := by
    split
    · exact replays_notification runtime m _ _ _
    · exact replays_pure ()
  cases isSettable with
  | true => exact (replays_setter runtime m _ _).bind fun _ ↦ hnotifies
  | false => exact hnotifies

theorem replays_body :
    Replays library (m.body mappers runtime) (m.body mappers' runtime) := by
  unfold MethodPlace.body
  split
  · exact replays_property h runtime m _ _
  · exact (replays_mapParams h m _ _).bind fun _ ↦ (replays_requireResult h m).bind fun _ ↦
      replays_notification runtime m _ _ _
  · exact replays_pull h runtime m
  · exact replays_plain h runtime _
  · exact replays_warn.bind fun _ ↦ replays_addDiagnostic _
  · exact replays_plain h runtime m

/-- A method comes to the same output again. -/
theorem emit_replays :
    Mapping.Replays library (m.emit mappers runtime) (m.emit mappers' runtime) := by
  refine (repetition library).attempt_bind (replays_body h runtime m {}) (fun result ↦ ?_)
    fun failure hfailure ↦ if_neg (by simp [hfailure])
  cases result with
  | ok run => exact Mapping.replays_pure _
  | error failure => exact (repetition library).ite_warn failure _

end Methods

end Emission

namespace Generate

open Emission

variable {mappers mappers' : Mappers} (h : mappers.Replay library mappers')
include h

theorem replays_mapDefinition (document : Document) (name : String) :
    Replays library (mapDefinition mappers document name)
      (mapDefinition mappers' document name) := by
  refine (replays_mapValue h _ _ _).attempt_bind (fun mapped ↦ ?_)
    fun failure hcyclic ↦ ite_of_isCyclic hcyclic _
  cases mapped with
  | ok type => exact replays_pure ()
  | error failure =>
    exact replays_ite_recoverable (replays_warn.bind fun _ ↦ replays_addDiagnostic _)

theorem replays_mapDefinitions (document : Document) (names : List String) :
    Replays library (names.forM (mapDefinition mappers document))
      (names.forM (mapDefinition mappers' document)) := by
  induction names with
  | nil => exact replays_pure ()
  | cons name rest ih => exact (replays_mapDefinition h document name).bind fun _ ↦ ih

end Generate

end SchemaBindings
