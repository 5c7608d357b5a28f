import SchemaBindings.Proofs.Cycles
import SchemaBindings.Proofs.Repeats
import SchemaBindings.Proofs.Stability

/-!
# The chain is given back

A key is put on the chain when a reference is followed, and is taken off again however the mapping
of its target ends. So a mapping leaves the chain as it was, successful or not, and so does every
loop that leaves out what fails. A mapper that many calls were made of, some of which have failed,
sees the same chain as a new one, and the cycles that it finds are cycles of the references that
it follows itself.
-/

namespace SchemaBindings

open Mapping

variable {α : Type}

/-- Whenever the mapping ends, successfully or not, the chain is the one that it has started
with. -/
def Mapping.RestoresChain (mapping : Mapping α) : Prop :=
  ∀ session result session', mapping session = some (result, session') →
    session'.chain = session.chain

theorem Mapping.Claims.restoresChain {library : Library} {allowed : Document → String → Prop}
    {mapping : Mapping α} (h : mapping.Claims library allowed) : mapping.RestoresChain :=
  fun _ _ _ hrun ↦ (h _ _ _ hrun).1

/-- After a run every mapper has the chain that it has had before. -/
theorem Run.chain_eq {cx : Context} {start fleet : Fleet} {history : List (Query × Answer)}
    (h : Run cx start history fleet) : fleet.chain = start.chain := by
  induction h with
  | start => rfl
  | @call history fleet query answer mapper session _ hends ih =>
    rw [← ih]
    funext side number
    change ite _ _ _ = _
    split
    case isTrue hcalled =>
      obtain ⟨rfl, rfl⟩ := hcalled
      exact hends.chain_eq
    case isFalse => rfl

/-- Mapping a schema to its native or wire type, merging a composition, and each loop over
properties, parameters or definitions gives back the chain that it has found, whatever fails on
the way. After any run of calls each mapper therefore has the chain of the start. If a call ends
in a cycle, then one of the nested calls that it makes comes to a reference that is being followed
above it. -/
theorem chain_is_restored (cx : Context) :
    (∀ budget document node request,
      (Native.map cx budget document node request).RestoresChain ∧
      (Wire.map cx budget document node request).RestoresChain) ∧
    (∀ budget document outer members path,
      (mergeAllOf cx.library budget document outer members path).RestoresChain) ∧
    (∀ budget document schema request stem properties,
      (Native.gather cx (Native.map cx budget) document schema request stem
        properties).RestoresChain ∧
      RestoresChain (properties.foldlM (Wire.addMember (Wire.map cx budget) document stem request)
        ⟨{}, []⟩)) ∧
    (∀ budget m position params output,
      (Emission.mapParams (.ofBudget cx budget) m position params output).RestoresChain) ∧
    (∀ budget document names output, RestoresChain
      ((List.forM names (Generate.mapDefinition (.ofBudget cx budget) document)) output)) ∧
    (∀ {start fleet : Fleet} {history : List (Query × Answer)},
      Run cx start history fleet → fleet.chain = start.chain) ∧
    ∀ document node request session keys place session',
      (Native.Ends cx document node request session (.error (.cyclicReference keys place))
        session' → ∃ last, Relation.ReflTransGen (Asks cx.library (Native.walk cx))
          ⟨document, node, request, session⟩ last ∧ last.Closes cx.library keys place) ∧
      (Wire.Ends cx document node request session (.error (.cyclicReference keys place))
        session' → ∃ last, Relation.ReflTransGen (Asks cx.library (Wire.walk cx))
          ⟨document, node, request, session⟩ last ∧ last.Closes cx.library keys place) := by
  refine ⟨fun budget document node request ↦ ⟨?_, ?_⟩, ?_, ?_, ?_, ?_, Run.chain_eq, ?_⟩
  · exact (Native.map_claims_any cx budget document node request).restoresChain
  · exact (Wire.map_claims_any cx budget document node request).restoresChain
  · intro budget document outer members path
    have hclaims : Claims cx.library (fun _ _ ↦ True)
        (mergeAllOf cx.library budget document outer members path) := mergeAllOf_claims _ _ _ _ _
    exact hclaims.restoresChain
  · intro budget document schema request stem properties
    have hnative : Claims cx.library (fun _ _ ↦ True)
        (Native.gather cx (Native.map cx budget) document schema request stem properties) :=
      Claims.foldlM (Native.addProperty_claims_any budget _ schema) properties _
    have hwire : Claims cx.library (fun _ _ ↦ True)
        (properties.foldlM (Wire.addMember (Wire.map cx budget) document stem request) ⟨{}, []⟩) :=
      Claims.foldlM (Wire.addMember_claims_any budget stem) properties _
    exact ⟨hnative.restoresChain, hwire.restoresChain⟩
  · intro budget m position params output
    have hmappers := Mappers.replay_ofBudget cx (Nat.le_refl budget)
    exact (Emission.replays_mapParams hmappers m position params output).first_claims.restoresChain
  · intro budget document names output
    have hmappers := Mappers.replay_ofBudget cx (Nat.le_refl budget)
    exact (Generate.replays_mapDefinitions hmappers document names
      output).first_claims.restoresChain
  · intro document node request session keys place session'
    constructor
    · rintro ⟨budget, hrun⟩
      exact Native.map_cycles budget document node request session keys place session' hrun
    · rintro ⟨budget, hrun⟩
      exact Wire.map_cycles budget document node request session keys place session' hrun

namespace ClosedLoop

/-- A definition that refers to itself, and an object with two properties of one undetermined
type. -/
def content : Json := .object [("title", .string "Radio"), ("definitions", .object [
  ("Loop", .object [("$ref", .string "#/definitions/Loop")]),
  ("Any", .object []),
  ("Tuner", .object [("type", .string "object"), ("properties", .object [
    ("first", .object [("$ref", .string "#/definitions/Any")]),
    ("second", .object [("$ref", .string "#/definitions/Any")])])])])]

theorem isSome_read : (Document.read content).toOption.isSome := by decide +kernel

def radio : Document := (Document.read content).toOption.get isSome_read

def cx : Context := ⟨⟨[radio]⟩, {}⟩

def query (name : String) : Query :=
  ⟨.native, radio, .ofKind (.reference ("#/definitions/" ++ name)), ⟨name, "", "Radio#/" ++ name⟩⟩

def ask (name : String) (session : Session) : Option (Except Failure NativeType × Session) :=
  Native.map cx 8 radio (query name).node (query name).request session

/-- The loop is found, then the object has a type: both of its properties are left out, the second
one for the same reason as the first. -/
theorem asked : (do
    let (first, session) ← ask "Loop" {}
    let (second, session) ← ask "Tuner" session
    pure (!first.isOk && second.isOk && session.warnings = 2)) = some true := by
  decide +kernel

def fleet : Fleet := ⟨fun _ _ ↦ [], {}, 0⟩

theorem chain_after_failures : ∃ fleet' failure type, Run cx fleet
    [(query "Loop", .native (.error failure)), (query "Tuner", .native (.ok type))] fleet' ∧
      fleet'.warnings = 2 ∧ fleet'.chain = fleet.chain := by
  obtain ⟨⟨first, session⟩, hfirst, hrest⟩ := Option.bind_eq_some_iff.1 asked
  obtain ⟨⟨second, session'⟩, hsecond, hresults⟩ := Option.bind_eq_some_iff.1 hrest
  cases first with
  | ok type => cases hresults
  | error failure =>
  cases second with
  | error failure => cases hresults
  | ok type =>
  have hloop : (query "Loop").Ends cx (fleet.session .native 0) (.native (.error failure))
      session := .native ⟨8, hfirst⟩
  have htuner : (query "Tuner").Ends cx ((fleet.after .native 0 session).session .native 0)
      (.native (.ok type)) session' := by
    rw [Fleet.session_after]
    exact .native ⟨8, hsecond⟩
  have hrun := Run.call (.call .start hloop) htuner
  have hwarnings : session'.warnings = 2 := of_decide_eq_true (Option.some.inj hresults)
  exact ⟨_, failure, type, hrun, hwarnings, (chain_is_restored cx).2.2.2.2.2.1 hrun⟩

end ClosedLoop

end SchemaBindings
