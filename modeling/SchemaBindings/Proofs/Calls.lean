import Mathlib.Order.WellFounded
import SchemaBindings.Binding.Request
import SchemaBindings.Proofs.Cover
import SchemaBindings.Proofs.Growth

/-!
# Nested calls

A mapper that is called for a schema calls itself for other schemas: for the target of a
reference, for the parts of the schema, and for what a composition merges into. A reference leaves
fewer references to follow, and a part is smaller than the whole, but the schema of a merged
composition is not smaller than the composition. An endless nest of calls therefore follows no
reference from some call on, and comes to compositions again and again.
-/

namespace SchemaBindings

/-- What a mapper is called with. -/
structure Call where
  document : Document
  node : Node
  request : Request
  session : Session

/-- How a mapper goes over the properties of an object. -/
structure Walk where
  /-- Whether it goes through an array that is declared in place to its elements. -/
  opensArrays : Bool
  /-- Whether it maps these properties, of an object with this stem, from one session to another. -/
  passes : Document → ObjectSchema → Request → String → List (String × Node) →
    Session → Session → Prop

/-- One call makes another one. -/
inductive Asks (library : Library) (walk : Walk) : Call → Call → Prop
  | target {document : Document} {node : Node} {request : Request} {session : Session}
      {reference : String} {target : Target} (hkind : node.kind = .reference reference)
      (htarget : library.resolve document reference request.path = .ok target)
      (hkey : target.key ∉ session.chain) :
      Asks library walk ⟨document, node, request, session⟩
        ⟨target.owner, target.node, .ofTarget target, session.push target.key⟩
  | element {document : Document} {node : Node} {request : Request} {session : Session}
      {items : Items} {label : String} {item : Node} (hkind : node.kind = .array items)
      (hlabel : request.label node = .ok label) (hitem : items.element request.path = .ok item) :
      Asks library walk ⟨document, node, request, session⟩
        ⟨document, item, request.element item label, session⟩
  | value {document : Document} {node : Node} {request : Request} {session session' : Session}
      {schema : ObjectSchema} {label stem : String} {additional : Node}
      (hkind : node.kind = .object schema) (hlabel : request.label node = .ok label)
      (hplain : schema.hasProperties = false) (hadditional : schema.additional = some additional)
      (hclaim : request.claim library document .map label session = some (.ok stem, session')) :
      Asks library walk ⟨document, node, request, session⟩
        ⟨document, additional, request.mapValue stem, session'⟩
  | property {document : Document} {node child : Node} {request : Request}
      {session between session' : Session} {schema : ObjectSchema} {label stem name : String}
      {before after : List (String × Node)} (hkind : node.kind = .object schema)
      (hlabel : request.label node = .ok label)
      (hclaim : request.claim library document .object label session = some (.ok stem, between))
      (hmembers : schema.members = before ++ (name, child) :: after)
      (hbefore : walk.passes document schema request stem before between session')
      (hwhole : walk.opensArrays → ∀ items, child.kind ≠ .array items) :
      Asks library walk ⟨document, node, request, session⟩
        ⟨document, child, request.property stem name, session'⟩
  | propertyElement {document : Document} {node child item : Node} {request : Request}
      {session between session' : Session} {schema : ObjectSchema} {label stem name : String}
      {before after : List (String × Node)} {items : Items} (hkind : node.kind = .object schema)
      (hlabel : request.label node = .ok label)
      (hclaim : request.claim library document .object label session = some (.ok stem, between))
      (hmembers : schema.members = before ++ (name, child) :: after)
      (hbefore : walk.passes document schema request stem before between session')
      (hopens : walk.opensArrays) (hchild : child.kind = .array items)
      (hitem : items.element (request.property stem name).path = .ok item) :
      Asks library walk ⟨document, node, request, session⟩
        ⟨document, item, (request.property stem name).element item name, session'⟩
  | merged {document : Document} {node merged : Node} {request : Request}
      {session session' : Session} {members : List Node} {label : String} {budget : Nat}
      (hkind : node.kind = .allOf members) (hlabel : request.label node = .ok label)
      (hmerge : mergeAllOf library budget document node members request.path session =
        some (.ok merged, session')) :
      Asks library walk ⟨document, node, request, session⟩
        ⟨document, .mk (node.title.or (some label)) merged.description merged.kind, request,
          session'⟩

def Node.IsComposition (node : Node) : Prop := ∃ members, node.kind = .allOf members

/-- A part of a schema that is mapped for itself. -/
inductive Node.Part : Node → Node → Prop
  | item {node item : Node} {items : Items} {path : String} (hkind : node.kind = .array items)
      (h : items.element path = .ok item) : Part item node
  | value {node additional : Node} {schema : ObjectSchema} (hkind : node.kind = .object schema)
      (h : schema.additional = some additional) : Part additional node
  | child {node : Node} {schema : ObjectSchema} {entry : String × Node}
      (hkind : node.kind = .object schema) (h : entry ∈ schema.members) : Part entry.2 node

theorem Node.Part.mem_inner {part whole : Node} (h : Part part whole) :
    part ∈ whole.kind.inner := by
  cases h with
  | item hkind h =>
    rw [hkind]
    exact Items.mem_nodes_of_element h
  | value hkind h =>
    rw [hkind]
    exact ObjectSchema.additional_mem_inner h
  | child hkind h =>
    rw [hkind]
    exact ObjectSchema.property_mem_inner h

theorem Node.Part.mem_mentions {part whole : Node} (h : Part part whole) {m : Mention}
    (hm : m ∈ part.mentions) : m ∈ whole.mentions := by
  rw [Node.mentions_eq whole]
  exact Kind.mem_mentions_of_inner h.mem_inner hm

theorem Node.Part.sizeOf_lt {part whole : Node} (h : Part part whole) :
    sizeOf part < sizeOf whole :=
  Node.sizeOf_inner_lt h.mem_inner

/-- A part, or a part of a part. -/
def Node.Within : Node → Node → Prop := Relation.TransGen Node.Part

theorem Node.Within.mem_mentions {part whole : Node} (h : Within part whole) {m : Mention}
    (hm : m ∈ part.mentions) : m ∈ whole.mentions := by
  induction h with
  | single h => exact h.mem_mentions hm
  | tail _ h ih => exact h.mem_mentions ih

theorem Node.Within.sizeOf_lt {part whole : Node} (h : Within part whole) :
    sizeOf part < sizeOf whole := by
  induction h with
  | single h => exact h.sizeOf_lt
  | tail _ h ih => exact ih.trans h.sizeOf_lt

theorem Node.isReference_eq {node : Node} {kind : Kind} (hkind : node.kind = kind) :
    node.isReference = kind.isReference := by
  subst hkind
  rfl

section Progress

variable {library : Library} {cover : Cover library} {walk : Walk}

/-- The walk gives the chain back after the properties. -/
def Walk.KeepsChain (walk : Walk) : Prop :=
  ∀ {document schema request stem properties session session'},
    walk.passes document schema request stem properties session session' →
      session'.chain = session.chain

/-- A reference is followed to its target. All other calls stay in the document, and are for a
part of the schema or for what a composition merges into. -/
theorem Asks.leads {call call' : Call} (h : Asks library walk call call') :
    (∃ reference target, call.node.kind = .reference reference ∧
      library.resolve call.document reference call.request.path = .ok target ∧
      target.key ∉ call.session.chain ∧
      call' = ⟨target.owner, target.node, .ofTarget target, call.session.push target.key⟩) ∨
    call.node.isReference = false ∧ call'.document = call.document ∧
      (call'.node.Within call.node ∨ ∃ members merged budget session',
        call.node.kind = .allOf members ∧
        mergeAllOf library budget call.document call.node members call.request.path call.session =
          some (.ok merged, session') ∧ call'.node.kind = merged.kind) := by
  cases h with
  | target hkind htarget hkey => exact .inl ⟨_, _, hkind, htarget, hkey, rfl⟩
  | element hkind hlabel hitem =>
    exact .inr ⟨Node.isReference_eq hkind, rfl, .inl (.single (.item hkind hitem))⟩
  | value hkind hlabel hplain hadditional hclaim =>
    exact .inr ⟨Node.isReference_eq hkind, rfl, .inl (.single (.value hkind hadditional))⟩
  | @property document node child request session between session' schema label stem name before
      after hkind hlabel hclaim hmembers hbefore hwhole =>
    have hchild : child.Part node := @Node.Part.child _ _ (name, child) hkind (by simp [hmembers])
    exact .inr ⟨Node.isReference_eq hkind, rfl, .inl (.single hchild)⟩
  | @propertyElement document node child item request session between session' schema label stem
      name before after items hkind hlabel hclaim hmembers hbefore hopens hchild hitem =>
    have hpart : child.Part node := @Node.Part.child _ _ (name, child) hkind (by simp [hmembers])
    exact .inr ⟨Node.isReference_eq hkind, rfl,
      .inl (.head (.item hchild hitem) (.single hpart))⟩
  | merged hkind hlabel hmerge =>
    exact .inr ⟨Node.isReference_eq hkind, rfl, .inr ⟨_, _, _, _, hkind, hmerge, rfl⟩⟩

/-- Only a reference that is followed adds to the chain. -/
theorem Asks.chain_eq (hwalk : walk.KeepsChain) {call call' : Call}
    (h : Asks library walk call call') (hreference : call.node.isReference = false) :
    call'.session.chain = call.session.chain := by
  cases h with
  | target hkind htarget hkey => cases (Node.isReference_eq hkind).symm.trans hreference
  | element hkind hlabel hitem => rfl
  | value hkind hlabel hplain hadditional hclaim => exact (Request.claim_eq_ok hclaim).1
  | property hkind hlabel hclaim hmembers hbefore hwhole =>
    exact (hwalk hbefore).trans (Request.claim_eq_ok hclaim).1
  | propertyElement hkind hlabel hclaim hmembers hbefore hopens hchild hitem =>
    exact (hwalk hbefore).trans (Request.claim_eq_ok hclaim).1
  | merged hkind hlabel hmerge =>
    obtain ⟨rfl, -⟩ := (mergeAllOf_static _ _ _ _ _ _).run_of_chain_eq hmerge rfl
    rfl

theorem Asks.holds {call call' : Call} (h : Asks library walk call call')
    (hcall : cover.Holds call.document call.node) :
    cover.Holds call'.document call'.node := by
  obtain ⟨reference, target, -, htarget, -, rfl⟩ |
    ⟨-, hdocument, hwithin | ⟨members, merged, budget, session', hkind, hmerge, hmerged⟩⟩ := h.leads
  · exact .target hcall.document_mem htarget
  · rw [hdocument]
    exact hcall.of_mentions hwithin.mem_mentions
  · rw [hdocument]
    refine ⟨hcall.document_mem, fun {reference} hm ↦ ?_⟩
    rw [Node.mentions_eq, hmerged, ← Node.mentions_eq] at hm
    obtain ⟨member, hmember, o, hreaches, hcopy⟩ := exists_reaches_of_mergeAllOf hmerge hm
    have hholds : cover.Holds call.document member := hcall.of_mentions fun hm ↦ by
      rw [Node.mentions_eq, hkind]
      exact mem_listMentions.2 ⟨member, hmember, hm⟩
    have hoccurrence := hholds.occurrence.reaches hreaches
    obtain ⟨written, hwritten, rfl⟩ := Occurrence.reference_of_copy hcopy
    exact hoccurrence.copyReference_mem hwritten

/-- What a call gets on with: it follows a reference, or it goes from a composition to what this
merges into, or to a part of its schema. -/
theorem Asks.progress (hwalk : walk.KeepsChain) {call call' : Call}
    (h : Asks library walk call call') (hcall : cover.Holds call.document call.node) :
    (call.node.isReference ∧ cover.free call'.session.chain < cover.free call.session.chain) ∨
    (call.node.isReference = false ∧ call'.session.chain = call.session.chain ∧
      (call.node.IsComposition ∨ sizeOf call'.node < sizeOf call.node)) := by
  obtain ⟨reference, target, hkind, htarget, hkey, rfl⟩ | ⟨hreference, -, hnext⟩ := h.leads
  · have hmention : .reference reference ∈ call.node.mentions := by
      rw [Node.mentions_eq, hkind]
      exact List.mem_singleton_self _
    have hmem := Cover.key_mem hcall.document_mem (hcall.reference_mem hmention) htarget
    exact .inl ⟨Node.isReference_eq hkind, cover.free_cons_lt hmem hkey⟩
  · refine .inr ⟨hreference, h.chain_eq hwalk hreference, ?_⟩
    obtain hwithin | ⟨members, merged, budget, session', hkind, -⟩ := hnext
    · exact .inr hwithin.sizeOf_lt
    · exact .inl ⟨members, hkind⟩

end Progress

/-! ## Endless nests of calls -/

/-- An endless nest of calls. From some call on no reference is followed, and compositions are
come to again and again. -/
structure Endless (asks : Call → Call → Prop) (start : Call) (run : ℕ → Call) : Prop where
  start_eq : run 0 = start
  asks : ∀ i, asks (run i) (run (i + 1))
  follows_none : ∃ n, ∀ i, n ≤ i → (run i).node.isReference = false
  compositions : ∀ n, ∃ i, n ≤ i ∧ (run i).node.IsComposition

section Nest

variable {library : Library} {walk : Walk}

/-- Everything that is met from a call on comes from the documents and from its own schema. -/
def Call.cover (library : Library) (call : Call) : Cover library where
  documents := call.document :: library.documents
  texts := call.node.references ++
    (call.document :: library.documents).flatMap fun document ↦ document.content.texts
  library_subset := List.subset_cons_self _ _
  texts_subset document hdocument _ htext :=
    List.mem_append_right _ (List.mem_flatMap.2 ⟨document, hdocument, htext⟩)

theorem Call.cover_holds (library : Library) (call : Call) :
    (call.cover library).Holds call.document call.node where
  document_mem := List.mem_cons_self
  reference_mem hm := Cover.texts_subset_copies
    (List.mem_append_left _ ((Node.mem_references call.node).2 hm))

section Run

variable {cover : Cover library} {run : ℕ → Call}
  (hasks : ∀ i, Asks library walk (run i) (run (i + 1)))
  (hstart : cover.Holds (run 0).document (run 0).node)

include hasks hstart

theorem holds_of_asks (i : ℕ) : cover.Holds (run i).document (run i).node := by
  induction i with
  | zero => exact hstart
  | succ i ih => exact (hasks i).holds ih

/-- Each reference that is followed leaves fewer to follow, and none of the other calls leaves
more. -/
theorem follows_none_of_asks (hwalk : walk.KeepsChain) :
    ∃ n, ∀ i, n ≤ i → (run i).node.isReference = false := by
  let free := fun i ↦ cover.free (run i).session.chain
  have hprogress := fun i ↦ (hasks i).progress hwalk (holds_of_asks hasks hstart i)
  have hstep : ∀ i, free (i + 1) ≤ free i := by
    intro i
    obtain ⟨-, hlt⟩ | ⟨-, heq, -⟩ := hprogress i
    · exact Nat.le_of_lt hlt
    · exact Nat.le_of_eq (congrArg cover.free heq)
  have hmono : Antitone free := antitone_nat_of_succ_le hstep
  refine ⟨Function.argmin free, fun i hi ↦ ?_⟩
  obtain ⟨-, hlt⟩ | ⟨hnone, -⟩ := hprogress i
  · have hleast : free (Function.argmin free) ≤ free (i + 1) := Function.argmin_le free (i + 1)
    have hbelow : free (i + 1) < free (Function.argmin free) := Nat.lt_of_lt_of_le hlt (hmono hi)
    exact absurd hleast (Nat.not_le.2 hbelow)
  · exact hnone

/-- Schemas cannot get smaller for ever, so where no reference is followed any more, there is a
composition later on. -/
theorem composition_of_asks (hwalk : walk.KeepsChain) {n : ℕ}
    (hnone : ∀ i, n ≤ i → (run i).node.isReference = false) (m : ℕ) :
    ∃ i, m ≤ i ∧ (run i).node.IsComposition := by
  let size := fun i ↦ sizeOf (run (max n m + i)).node
  let least := Function.argmin size
  have hleast : size least ≤ size (least + 1) := Function.argmin_le size (least + 1)
  have hprogress :=
    (hasks (max n m + least)).progress hwalk (holds_of_asks hasks hstart (max n m + least))
  obtain ⟨hreference, -⟩ | ⟨-, -, hcomposition | hlt⟩ := hprogress
  · rw [hnone _ (by omega)] at hreference
    cases hreference
  · exact ⟨_, by omega, hcomposition⟩
  · exact absurd hleast (Nat.not_le.2 hlt)

end Run

theorem endless_of_asks (hwalk : walk.KeepsChain) {start : Call} {run : ℕ → Call}
    (hstart : run 0 = start) (hasks : ∀ i, Asks library walk (run i) (run (i + 1))) :
    Endless (Asks library walk) start run := by
  have hholds : (start.cover library).Holds (run 0).document (run 0).node := by
    rw [hstart]
    exact start.cover_holds library
  obtain ⟨n, hnone⟩ := follows_none_of_asks hasks hholds hwalk
  exact ⟨hstart, hasks, ⟨n, hnone⟩, composition_of_asks hasks hholds hwalk hnone⟩

/-- A mapper that asks for the mappings of other schemas, and has a result as soon as all of these
have one, fails to have a result only for an endless nest of calls. -/
theorem exists_iff_not_endless (hwalk : walk.KeepsChain) {ends : Nat → Call → Prop}
    (hzero : ∀ call, ¬ends 0 call)
    (hasks : ∀ {budget call call'}, ends (budget + 1) call → Asks library walk call call' →
      ends budget call')
    (hends : ∀ call, (∀ call', Asks library walk call call' → ∃ budget, ends budget call') →
      ∃ budget, ends budget call)
    (start : Call) :
    (∃ budget, ends budget start) ↔ ¬∃ run, Endless (Asks library walk) start run := by
  constructor
  · rintro ⟨budget, h⟩ ⟨run, hrun⟩
    have hall : ∀ budget i, ¬ends budget (run i) := by
      intro budget
      induction budget with
      | zero => exact fun i ↦ hzero _
      | succ budget ih => exact fun i h ↦ ih (i + 1) (hasks h (hrun.asks i))
    refine hall budget 0 ?_
    rw [hrun.start_eq]
    exact h
  · intro hnot
    have hacc : Acc (flip (Asks library walk)) start := by
      by_contra hacc
      obtain ⟨run, hstart, hrun⟩ := not_acc_iff_exists_descending_chain.1 hacc
      exact hnot ⟨run, endless_of_asks hwalk hstart hrun⟩
    clear hnot
    induction hacc with
    | intro call _ ih => exact hends call ih

end Nest

end SchemaBindings
