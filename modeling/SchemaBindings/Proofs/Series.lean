import SchemaBindings.Proofs.Definitions
import SchemaBindings.Proofs.Placed
import SchemaBindings.Proofs.Repeats

/-!
# Methods in any order

The methods of a document may be emitted in any order, and some of them left out. In orderly
documents, all that one emission can do to another is to take a symbol from it. As long as no path
is renamed, all claims are answered with preferred stems, in each of the orders; what a method comes
to is then determined by these stems.
-/

namespace SchemaBindings

open Mapping

section

variable {cx : Context} {documents : List Document} {m : MethodPlace}

/-! ## Emissions keep to preferred stems -/

theorem Document.rooted_definitionRef {content : Json} {document : Document}
    (h : Document.read content = .ok document) (name : String) :
    Rooted (document.definitionRef name) := by
  obtain ⟨root, written, hslash, href⟩ := Document.definitionRef_eq h name
  refine ⟨root, written, hslash, ?_⟩
  rw [splitReference_local (Document.isLocal_definitionRef h name), href]

/-- The schemas that are mapped for a method are placed in the stem around them. -/
theorem MethodPlace.Schemas.placed (hlibrary : cx.library.Orderly documents)
    (hdocument : m.document ∈ documents) (hm : m.Of m.document) {v : Visit} (h : m.Schemas v) :
    Placed cx.library documents v m.scope := by
  cases h with
  | param hparams h =>
    rw [MethodPlace.scope_eq hparams]
    exact .shown (.start (.param hdocument hm hparams h)) .refl
  | result hparams h =>
    rw [MethodPlace.scope_eq hparams]
    exact .shown (.start (.result hdocument hm hparams h)) .refl
  | federated _ h =>
    exact .reference hdocument rfl
      (Document.rooted_definitionRef (hlibrary.read _ hdocument) _)

theorem MethodPlace.emit_keepsTo (hlibrary : cx.library.Orderly documents)
    (hdocument : m.document ∈ documents) (hm : m.Of m.document) (budget : Nat) :
    KeepsTo cx.library documents (m.emit (.ofBudget cx budget) cx.runtime) := by
  have hlasts : Emission.Lasts (preferenceRules cx.library documents) (fun _ _ ↦ True)
      (fun _ ↦ True) (.ofBudget cx budget) (Placed cx.library documents) :=
    Emission.lasts_of_allowing (fun _ ↦ trivial) (Native.map_keepsTo hlibrary budget)
      (Wire.map_keepsTo hlibrary budget)
  exact Emission.emit_obeys hlasts (Emission.keeps_functions hlasts fun _ _ ↦ trivial)
    (fun _ _ _ _ ↦ trivial) fun v hv ↦ hv.placed hlibrary hdocument hm

/-! ## Series of emissions -/

/-- The emission of the method ends in this way, with any budget that is large enough. -/
def MethodPlace.Ends (cx : Context) (m : MethodPlace) (session : Session)
    (result : Except Failure Output) (session' : Session) : Prop :=
  ∃ budget, m.emit (.ofBudget cx budget) cx.runtime session = some (result, session')

/-- Methods of a document are emitted one after the other, starting with an empty registry. The
history tells what each comes to; a failure does not end the series. -/
inductive Series (cx : Context) (document : Document) :
    List (MethodPlace × Except Failure Output) → Session → Prop
  | start : Series cx document [] {}
  | emit {history : List (MethodPlace × Except Failure Output)} {session session' : Session}
      {m : MethodPlace} {result : Except Failure Output} (h : Series cx document history session)
      (hm : m.Of document) (hends : m.Ends cx session result session') :
      Series cx document (history ++ [(m, result)]) session'

namespace MethodPlace

variable {session session' later : Session} {result : Except Failure Output}

theorem Ends.chain_eq (h : m.Ends cx session result session') : session'.chain = session.chain := by
  obtain ⟨budget, hrun⟩ := h
  have hmappers := Mappers.replay_ofBudget cx (Nat.le_refl budget)
  exact ((Emission.emit_replays hmappers cx.runtime m).first_claims _ _ _ hrun).1

theorem Ends.extends (h : m.Ends cx session result session') :
    session.registry.Extends session'.registry := by
  obtain ⟨budget, hrun⟩ := h
  have hmappers := Mappers.replay_ofBudget cx (Nat.le_refl budget)
  exact ((Emission.emit_replays hmappers cx.runtime m).first_claims _ _ _ hrun).2.extends

/-- Once the stems are known, the emission ends in the same way again. -/
theorem Ends.again (h : m.Ends cx session result session') (hchain : later.chain = session.chain)
    (hextends : session'.registry.Extends later.registry) :
    ∃ budget, ∀ larger, budget ≤ larger →
      ∃ later', m.emit (.ofBudget cx larger) cx.runtime later = some (result, later') := by
  obtain ⟨budget, hrun⟩ := h
  refine ⟨budget, fun larger hlarger ↦ ?_⟩
  have hmappers := Mappers.replay_ofBudget cx hlarger
  exact (Emission.emit_replays hmappers cx.runtime m).replay hrun hextends (.inl hchain)

end MethodPlace

namespace Series

variable {document : Document} {history : List (MethodPlace × Except Failure Output)}
  {session : Session} {result : Except Failure Output}

theorem chain_eq (h : Series cx document history session) : session.chain = [] := by
  induction h with
  | start => rfl
  | emit _ _ hends ih => rw [hends.chain_eq, ih]

/-- Each result was come to with stems that are still there. -/
theorem ends_of_mem (h : Series cx document history session) (hmem : (m, result) ∈ history) :
    ∃ before after, before.chain = [] ∧ m.Ends cx before result after ∧
      after.registry.Extends session.registry := by
  induction h with
  | start => exact absurd hmem List.not_mem_nil
  | @emit _ between last _ _ h _ hends ih =>
    obtain hearlier | hlast := List.mem_append.1 hmem
    · obtain ⟨before, after, hchain, hends', hextends⟩ := ih hearlier
      exact ⟨before, after, hchain, hends', hextends.trans hends.extends⟩
    · cases List.mem_singleton.1 hlast
      exact ⟨between, last, h.chain_eq, hends, .refl _⟩

/-- As long as no path is renamed, all stems of a series are preferred ones. -/
theorem faithful (hlibrary : cx.library.Orderly documents) (hdocument : document ∈ documents)
    (h : Series cx document history session) (hrenamed : session.registry.renamed = []) :
    session.registry.Faithful cx.library documents := by
  have hholds : (preferenceRules cx.library documents).holds session.registry := by
    clear hrenamed
    induction h with
    | start => exact fun _ ↦ Registry.faithful_empty
    | emit _ hm hends ih =>
      obtain ⟨budget, hrun⟩ := hends
      obtain ⟨rfl, -⟩ := id hm
      exact (MethodPlace.emit_keepsTo hlibrary hdocument hm budget hrun ih trivial).1
  exact hholds hrenamed

end Series

/-- Where the stems of two registries agree, there is a registry that has all of them. -/
theorem Registry.exists_extends {registry registry' : Registry}
    (h : ∀ path stem stem', registry.stem? path = some stem → registry'.stem? path = some stem' →
      stem = stem') :
    ∃ both : Registry, registry.Extends both ∧ registry'.Extends both := by
  have hget : ∀ path (first second : List (String × String)),
      Table.get? path (first ++ second) = (Table.get? path first).or (Table.get? path second) := by
    intro path first second
    induction first with
    | nil => rfl
    | cons entry rest ih =>
      obtain ⟨key, stem⟩ := entry
      rw [List.cons_append, Table.get?, Table.get?, ih]
      split <;> rfl
  refine ⟨{ stems := registry.stems ++ registry'.stems }, fun path stem hstem ↦ ?_,
    fun path stem' hstem' ↦ ?_⟩
  · refine (hget path _ _).trans ?_
    rw [show Table.get? path registry.stems = some stem from hstem]
    rfl
  · refine (hget path _ _).trans ?_
    rw [show Table.get? path registry'.stems = some stem' from hstem']
    cases hstem : Table.get? path registry.stems with
    | none => rfl
    | some stem => rw [h path stem stem' hstem hstem', Option.some_or]

/-- If the documents are orderly and no path is renamed in either of two series of emissions, each
method that is emitted in both comes to the same output or to the same failure. -/
theorem emissions_commute {document : Document}
    (hlibrary : cx.library.Orderly (document :: cx.library.documents))
    {history history' : List (MethodPlace × Except Failure Output)} {session session' : Session}
    (h : Series cx document history session) (h' : Series cx document history' session')
    (hrenamed : session.registry.renamed = []) (hrenamed' : session'.registry.renamed = [])
    {result result' : Except Failure Output} (hm : (m, result) ∈ history)
    (hm' : (m, result') ∈ history') : result = result' := by
  have hfaithful := h.faithful hlibrary List.mem_cons_self hrenamed
  have hfaithful' := h'.faithful hlibrary List.mem_cons_self hrenamed'
  obtain ⟨both, hboth, hboth'⟩ := Registry.exists_extends fun path stem stem' hstem hstem' ↦
    (hfaithful.prefers path stem hstem).unique hlibrary (hfaithful'.prefers path stem' hstem')
  obtain ⟨before, after, hchain, hends, hextends⟩ := h.ends_of_mem hm
  obtain ⟨before', after', hchain', hends', hextends'⟩ := h'.ends_of_mem hm'
  let later : Session := { registry := both }
  have hlater : later.chain = before.chain := hchain.symm
  have hlater' : later.chain = before'.chain := hchain'.symm
  obtain ⟨budget, hagain⟩ := hends.again hlater (hextends.trans hboth)
  obtain ⟨budget', hagain'⟩ := hends'.again hlater' (hextends'.trans hboth')
  obtain ⟨_, hrun⟩ := hagain (max budget budget') (Nat.le_max_left _ _)
  obtain ⟨_, hrun'⟩ := hagain' (max budget budget') (Nat.le_max_right _ _)
  cases hrun.symm.trans hrun'
  rfl

end

namespace Presets

def band : Json := .object [("type", .string "string"),
  ("enum", .array [.string "fm", .string "am"])]

def bandReference : Json := .object [("$ref", .string "#/components/schemas/Band")]

def objectOf (properties : List (String × Json)) : Json :=
  .object [("type", .string "object"), ("properties", .object properties)]

def named (name : String) (schema : Json) : Json :=
  .object [("name", .string name), ("schema", schema)]

/-- One method has objects in a list, the other one an object in an object, and both refer to the
definition. -/
def content : Json := .object [
  ("openrpc", .string "1.2.4"), ("info", .object [("title", .string "Radio")]),
  ("methods", .array [
    .object [("name", .string "tune"),
      ("params", .array [named "presets" (.object [("type", .string "array"),
        ("items", objectOf [("band", bandReference)])])]),
      ("result", named "done" (.object [("type", .string "boolean")]))],
    .object [("name", .string "scan"), ("params", .array []),
      ("result", named "station" (objectOf [("band", bandReference),
        ("place", objectOf [("step", .object [("type", .string "integer")])])]))]]),
  ("components", .object [("schemas", .object [("Band", band)])])]

theorem isSome_read : (Document.read content).toOption.isSome := by decide +kernel

def radio : Document := (Document.read content).toOption.get isSome_read

def cx : Context := ⟨⟨[radio]⟩, {}⟩

theorem read_radio : Document.read content = .ok radio := eq_ok_get isSome_read

theorem content_radio : radio.content = content := (Document.read_eq_ok read_radio).2.2.2

theorem references_radio : ∀ reference ∈ radio.references,
    reference = "#/components/schemas/Band" := by
  decide +kernel

theorem points_band : cx.library.PointsAtDefinition radio "#/components/schemas/Band" := by
  have hroot : radio.definitionsRoot = "#/components/schemas" := by decide +kernel
  refine ⟨radio, "Band", ?_, by decide, by decide +kernel⟩
  rw [hroot]
  exact Library.place?_of_unnamed (by decide)

/-- There is one definition, and it has no references. -/
theorem not_refers {root : DefinitionsRoot} {written reference : String}
    (hslash : '/' ∉ written.toList) :
    ¬radio.Refers (root.pointer ++ "/" ++ written) reference := by
  rintro ⟨value, node, hvalue, hnode, hmem⟩
  rw [Document.fragment?_under _ _ hslash, content_radio] at hvalue
  have hband : value = band := by
    rw [List.foldlM_append] at hvalue
    cases root with
    | definitions =>
      simp [DefinitionsRoot.steps, content, Json.step?, Table.get?] at hvalue
    | components =>
      have hschemas : DefinitionsRoot.components.steps.foldlM Json.step? content =
          some (.object [("Band", band)]) := by
        simp [DefinitionsRoot.steps, content, Json.step?, Table.get?]
      rw [hschemas] at hvalue
      obtain ⟨-, hvalue⟩ : _ ∧ band = value := by simpa [Json.step?, Table.get?] using hvalue
      exact hvalue.symm
  subst hband
  obtain ⟨f, kind, hform, hkind, rfl⟩ := Node.read_object_eq_ok hnode
  cases hform
  rw [Kind.ofForm] at hkind
  cases hkind
  cases hmem

theorem orderly : cx.library.Orderly (radio :: cx.library.documents) where
  library_subset := List.subset_cons_self _ _
  eq_of_uri := by simp [cx]
  eq_of_title := by simp [cx]
  read := by simpa [cx, content_radio] using read_radio
  distinct := by
    simp [cx, content_radio, content, named, objectOf, bandReference, band, Table.keys]
  points := by
    intro document hdocument reference hwrites
    obtain rfl : document = radio := by simpa [cx] using hdocument
    cases hwrites with
    | declared h => exact references_radio reference h ▸ points_band
    | under hslash h => exact absurd h (not_refers hslash)

theorem length_methods : radio.methods.length = 2 := by decide +kernel

def method (position : Fin 2) : MethodPlace :=
  ⟨radio, position, radio.methods.get (position.cast length_methods.symm)⟩

theorem of_radio (position : Fin 2) : (method position).Of radio :=
  ⟨rfl, List.getElem?_eq_getElem _⟩

def emitBoth (first second : MethodPlace) :
    Option (Except Failure Output × Except Failure Output × Session) := do
  let (result, session) ← first.emit (.ofBudget cx 8) cx.runtime {}
  let (result', session) ← second.emit (.ofBudget cx 8) cx.runtime session
  pure (result, result', session)

theorem emitted (position : Fin 2) :
    (emitBoth (method position) (method position.rev)).any fun (result, result', session) ↦
      result.isOk && result'.isOk && session.registry.renamed.isEmpty := by
  revert position
  decide +kernel

theorem series (position : Fin 2) : ∃ output output' session,
    Series cx radio [(method position, .ok output), (method position.rev, .ok output')] session ∧
      session.registry.renamed = [] := by
  obtain ⟨⟨result, result', session⟩, hboth, hok⟩ := (Option.any_eq_true _ _).1 (emitted position)
  obtain ⟨⟨_, between⟩, hfirst, hrest⟩ := Option.bind_eq_some_iff.1 hboth
  obtain ⟨⟨_, last⟩, hsecond, hresults⟩ := Option.bind_eq_some_iff.1 hrest
  cases hresults
  simp only [Bool.and_eq_true, List.isEmpty_iff] at hok
  obtain ⟨⟨hok, hok'⟩, hrenamed⟩ := hok
  cases result with
  | error failure => cases hok
  | ok output =>
  cases result' with
  | error failure => cases hok'
  | ok output' =>
  have hseries := Series.emit (.emit .start (of_radio position) ⟨8, hfirst⟩)
    (of_radio position.rev) ⟨8, hsecond⟩
  exact ⟨output, output', _, hseries, hrenamed⟩

theorem same_in_both_orders : ∃ tuned scanned tuned' scanned' session session',
    Series cx radio [(method 0, .ok tuned), (method 1, .ok scanned)] session ∧
    Series cx radio [(method 1, .ok scanned'), (method 0, .ok tuned')] session' ∧
      tuned = tuned' ∧ scanned = scanned' := by
  obtain ⟨tuned, scanned, session, h, hrenamed⟩ := series 0
  obtain ⟨scanned', tuned', session', h', hrenamed'⟩ := series 1
  have htuned : (.ok tuned : Except Failure Output) = .ok tuned' :=
    emissions_commute orderly h h' hrenamed hrenamed' (.head _) (.tail _ (.head _))
  have hscanned : (.ok scanned : Except Failure Output) = .ok scanned' :=
    emissions_commute orderly h h' hrenamed hrenamed' (.tail _ (.head _)) (.head _)
  exact ⟨tuned, scanned, tuned', scanned', session, session', h, h', Except.ok.inj htuned,
    Except.ok.inj hscanned⟩

end Presets

end SchemaBindings
