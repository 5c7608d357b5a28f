/-!
# Failures

Why a document is not readable or a binding cannot be generated, each with the place of the
schema concerned. Only a type that cannot be determined is recoverable: what it belongs to is
left out, and generation goes on.
-/

namespace SchemaBindings

inductive Failure where
  | unknownDocument (reference path : String)
  | unresolvedReference (reference path : String)
  | cyclicReference (chain : List String) (path : String)
  | conflictingMerge (detail path : String)
  | unsupportedUnion (path : String)
  | unsupportedPattern (path : String)
  | heterogeneousItems (path : String)
  | nameCollision (name path : String)
  | undeterminedType (path : String)
  | invalidSchema (detail path : String)
  | settings (detail : String)
  deriving DecidableEq, Repr

namespace Failure

def message : Failure → String
  | unknownDocument reference path => s!"unknown module reference '{reference}' at {path}"
  | unresolvedReference reference path => s!"unresolved reference '{reference}' at {path}"
  | cyclicReference chain path =>
    "cyclic schema reference at " ++ path ++ ": " ++ String.intercalate " -> " chain
  | conflictingMerge detail path => s!"conflicting allOf merge at {path}: {detail}"
  | unsupportedUnion path => s!"unsupported union schema at {path}"
  | unsupportedPattern path => s!"unsupported patternProperties at {path}"
  | heterogeneousItems path => s!"heterogeneous array items at {path}"
  | nameCollision name path => s!"type name collision for '{name}' at {path}"
  | undeterminedType path => s!"undetermined property type at {path}"
  | invalidSchema detail path => s!"invalid schema at {path}: {detail}"
  | settings detail => s!"configuration error: {detail}"

/-- Stable number of the kind of failure in reports. -/
def code : Failure → Nat
  | unknownDocument .. => 1
  | unresolvedReference .. => 2
  | cyclicReference .. => 3
  | conflictingMerge .. => 4
  | unsupportedUnion .. => 5
  | unsupportedPattern .. => 6
  | heterogeneousItems .. => 7
  | nameCollision .. => 8
  | undeterminedType .. => 9
  | invalidSchema .. => 10
  | settings .. => 11

def isRecoverable : Failure → Bool
  | undeterminedType _ => true
  | _ => false

/-- The place of the schema; settings have none. -/
def path? : Failure → Option String
  | unknownDocument _ path => some path
  | unresolvedReference _ path => some path
  | cyclicReference _ path => some path
  | conflictingMerge _ path => some path
  | unsupportedUnion path => some path
  | unsupportedPattern path => some path
  | heterogeneousItems path => some path
  | nameCollision _ path => some path
  | undeterminedType path => some path
  | invalidSchema _ path => some path
  | settings _ => none

variable {α β : Type}

theorem bind_eq_ok {result : Except Failure α} {next : α → Except Failure β} {value : β} :
    result >>= next = .ok value ↔ ∃ found, result = .ok found ∧ next found = .ok value := by
  constructor
  · intro h
    cases result with
    | ok found => exact ⟨found, rfl, h⟩
    | error failure => cases h
  · rintro ⟨found, rfl, h⟩
    exact h

theorem map_eq_ok {result : Except Failure α} {f : α → β} {value : β} :
    result.map f = .ok value ↔ ∃ found, result = .ok found ∧ f found = value := by
  constructor
  · intro h
    cases result with
    | ok found => exact ⟨found, rfl, Except.ok.inj h⟩
    | error failure => cases h
  · rintro ⟨found, rfl, rfl⟩
    rfl

/-- A property that every step keeps holds after all of them. -/
theorem foldlM_induction {step : β → α → Except Failure β} {P : β → Prop}
    {xs : List α} {start result : β} (hstart : P start)
    (h : xs.foldlM step start = .ok result)
    (hstep : ∀ x ∈ xs, ∀ soFar next, P soFar → step soFar x = .ok next → P next) : P result := by
  induction xs generalizing start with
  | nil =>
    cases h
    exact hstart
  | cons x rest ih =>
    rw [List.foldlM_cons] at h
    obtain ⟨next, hnext, hrest⟩ := bind_eq_ok.1 h
    exact ih (hstep x (.head rest) start next hstart hnext) hrest
      fun y hy ↦ hstep y (.tail x hy)

theorem any_toOption {result : Except Failure α} {check : α → Bool} :
    result.toOption.any check = true ↔ ∃ value, result = .ok value ∧ check value = true := by
  cases result with
  | ok value => simp [Except.toOption]
  | error failure => simp [Except.toOption]

end Failure

end SchemaBindings
