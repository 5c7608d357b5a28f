import SchemaBindings.Proofs.Relations

/-!
# Budgets

A larger budget changes no result. A mapping is refined by another one that has all of its
results, and every operation that mappings are built with keeps this order, so a merge and the
native or wire type of a schema are the same for all budgets that suffice.
-/

namespace SchemaBindings

namespace Mapping

variable {α β : Type}

/-- Every result of the first mapping is a result of the second. -/
def Refines (first second : Mapping α) : Prop :=
  ∀ session run, first session = some run → second session = some run

theorem Refines.refl (mapping : Mapping α) : mapping.Refines mapping :=
  fun _ _ h ↦ h

theorem exhausted_refines (mapping : Mapping α) : exhausted.Refines mapping :=
  fun _ _ h ↦ nomatch h

theorem Refines.bind {first second : Mapping α} {next next' : α → Mapping β}
    (h : first.Refines second) (hnext : ∀ value, (next value).Refines (next' value)) :
    (first >>= next).Refines (second >>= next') := by
  rintro session ⟨result, session'⟩ hrun
  rw [bind_eq_some] at hrun ⊢
  obtain ⟨value, between, hfirst, hsecond⟩ | ⟨failure, hfirst, hresult⟩ := hrun
  · exact .inl ⟨value, between, h _ _ hfirst, hnext value _ _ hsecond⟩
  · exact .inr ⟨failure, h _ _ hfirst, hresult⟩

theorem Refines.attempt {first second : Mapping α} (h : first.Refines second) :
    (attempt first).Refines (attempt second) := by
  intro session run hrun
  rw [run_attempt] at hrun ⊢
  obtain ⟨inner, hinner, heq⟩ := Option.map_eq_some_iff.1 hrun
  exact Option.map_eq_some_iff.2 ⟨inner, h _ _ hinner, heq⟩

theorem Refines.following {first second : Mapping α} (h : first.Refines second)
    (key path : String) : (following key path first).Refines (following key path second) := by
  intro session run hrun
  rw [run_following] at hrun ⊢
  split at hrun
  · rw [if_pos ‹_›]
    exact hrun
  · rw [if_neg ‹_›]
    obtain ⟨inner, hinner, heq⟩ := Option.map_eq_some_iff.1 hrun
    exact Option.map_eq_some_iff.2 ⟨inner, h _ _ hinner, heq⟩

/-- The second mapping has some more budget. -/
def refinement (more : Nat) : Relation where
  holds := Refines
  more := more
  exhausted _ _ := exhausted_refines _
  faults _ := .refl _
  bind := .bind
  following := .following

/-- A schema is mapped for the same place with some more budget. -/
def mapperRefinement (library : Library) (more : Nat) : MapperRelation library where
  toRelation := refinement more
  places _ _ scope scope' := scope = scope'
  child hplace _ := hplace
  inside _ _ := rfl
  target _ _ _ _ _ := rfl
  ofExcept _ := .refl _
  warn := .refl _
  claim hplace _ _ := hplace ▸ .refl _
  attempt_bind h hnext _ := h.attempt.bind hnext

/-- Two budgets that suffice give the same result. -/
theorem run_unique {mapping : Nat → Mapping α}
    (hmono : ∀ {budget budget'}, budget ≤ budget' →
      (mapping budget).Refines (mapping budget')) {budget budget' : Nat} {session : Session}
    {run run' : Except Failure α × Session} (h : mapping budget session = some run)
    (h' : mapping budget' session = some run') : run = run' := by
  have hlarge := hmono (Nat.le_max_left budget budget') _ _ h
  have hlarge' := hmono (Nat.le_max_right budget budget') _ _ h'
  rw [hlarge] at hlarge'
  exact Option.some.inj hlarge'

end Mapping

open Mapping

namespace Flatten

theorem collect_refines (library : Library) {budget budget' : Nat} (h : budget ≤ budget')
    (document : Document) (path : String) (node : Node) :
    (collect library budget document path node).Refines
      (collect library budget' document path node) := by
  obtain ⟨more, rfl⟩ := Nat.exists_eq_add_of_le' h
  exact collect_related (refinement more) library budget document path node

theorem members_refines (library : Library) {budget budget' : Nat} (h : budget ≤ budget')
    (document : Document) (path : String) (position : Nat) (nodes : List Node) :
    (members (collect library budget) document path position nodes).Refines
      (members (collect library budget') document path position nodes) :=
  members_related (refinement 0) _ _ (collect_refines library h) document path position nodes

end Flatten

theorem mergeAllOf_refines (library : Library) {budget budget' : Nat} (h : budget ≤ budget')
    (document : Document) (outer : Node) (members : List Node) (path : String) :
    (mergeAllOf library budget document outer members path).Refines
      (mergeAllOf library budget' document outer members path) := by
  obtain ⟨more, rfl⟩ := Nat.exists_eq_add_of_le' h
  exact mergeAllOf_related (refinement more) library budget document outer
    members path

namespace Native

theorem map_refines (cx : Context) {budget budget' : Nat} (h : budget ≤ budget')
    (document : Document) (node : Node) (request : Request) :
    (map cx budget document node request).Refines (map cx budget' document node request) := by
  obtain ⟨more, rfl⟩ := Nat.exists_eq_add_of_le' h
  exact map_related (mapperRefinement cx.library more) budget rfl node

theorem relates_map (cx : Context) {budget budget' : Nat} (h : budget ≤ budget') :
    (mapperRefinement cx.library 0).Relates (map cx budget) (map cx budget') := by
  rintro document node name path scope _ rfl
  exact map_refines cx h document node _

/-- The mapping of a schema ends in this way, with any budget that is large enough. -/
def Ends (cx : Context) (document : Document) (node : Node) (request : Request)
    (session : Session) (result : Except Failure NativeType) (session' : Session) : Prop :=
  ∃ budget, map cx budget document node request session = some (result, session')

theorem Ends.unique {cx : Context} {document : Document} {node : Node} {request : Request}
    {session session' session'' : Session} {result result' : Except Failure NativeType}
    (h : Ends cx document node request session result session')
    (h' : Ends cx document node request session result' session'') :
    result = result' ∧ session' = session'' := by
  obtain ⟨budget, hrun⟩ := h
  obtain ⟨budget', hrun'⟩ := h'
  exact Prod.mk.inj (run_unique (fun hle ↦ map_refines cx hle document node request) hrun hrun')

/-! What a mapping comes to with one more step of the budget, for each kind of schema. -/

section Run

variable {cx : Context} {document : Document} {node : Node} {request : Request} {session : Session}
  {budget : Nat} {label : String} {failure : Failure}

theorem run_map_reference {reference : String} (hkind : node.kind = .reference reference) :
    map cx (budget + 1) document node request session =
      Native.reference cx (map cx budget) document reference request session := by
  obtain ⟨title, description, kind⟩ := node
  cases hkind
  rfl

theorem run_map_array {items : Items} (hkind : node.kind = .array items)
    (hlabel : request.label node = .ok label) :
    map cx (budget + 1) document node request session =
      array cx (map cx budget) document items label request session := by
  obtain ⟨title, description, kind⟩ := node
  cases hkind
  change (Mapping.ofExcept _ >>= fun label ↦
    array cx (map cx budget) document items label request) session = _
  rw [run_ofExcept_bind, hlabel]

theorem run_map_object {schema : ObjectSchema} (hkind : node.kind = .object schema)
    (hlabel : request.label node = .ok label) :
    map cx (budget + 1) document node request session =
      objectLike cx (map cx budget) document schema label request session := by
  obtain ⟨title, description, kind⟩ := node
  cases hkind
  change (Mapping.ofExcept _ >>= fun label ↦
    objectLike cx (map cx budget) document schema label request) session = _
  rw [run_ofExcept_bind, hlabel]

theorem run_map_allOf {members : List Node} (hkind : node.kind = .allOf members)
    (hlabel : request.label node = .ok label) :
    map cx (budget + 1) document node request session =
      (mergeAllOf cx.library budget document node members request.path >>= fun merged ↦
        map cx budget document (.mk (node.title.or (some label)) merged.description merged.kind)
          request) session := by
  obtain ⟨title, description, kind⟩ := node
  cases hkind
  change (Mapping.ofExcept _ >>= fun label ↦ mergeAllOf cx.library budget document _ members _ >>=
    fun merged ↦ map cx budget document (.mk (Option.or title (some label)) _ _) request)
      session = _
  rw [run_ofExcept_bind, hlabel]
  rfl

theorem run_map_enumeration {values : List String} (hkind : node.kind = .enumeration values)
    (hlabel : request.label node = .ok label) :
    map cx (budget + 1) document node request session =
      enumeration cx document node values label request session := by
  obtain ⟨title, description, kind⟩ := node
  cases hkind
  change (Mapping.ofExcept _ >>= fun label ↦
    enumeration cx document _ values label request) session = _
  rw [run_ofExcept_bind, hlabel]

/-- A schema without a name fails before anything else, unless it is a reference. -/
theorem run_map_unlabelled (hkind : ∀ reference, node.kind ≠ .reference reference)
    (hlabel : request.label node = .error failure) :
    map cx (budget + 1) document node request session = some (.error failure, session) := by
  obtain ⟨title, description, kind⟩ := node
  cases kind with
  | reference reference => exact absurd rfl (hkind reference)
  | _ =>
    change (Mapping.ofExcept _ >>= _) session = _
    rw [run_ofExcept_bind, hlabel]

end Run

end Native

namespace Wire

theorem map_refines (cx : Context) {budget budget' : Nat} (h : budget ≤ budget')
    (document : Document) (node : Node) (request : Request) :
    (map cx budget document node request).Refines (map cx budget' document node request) := by
  obtain ⟨more, rfl⟩ := Nat.exists_eq_add_of_le' h
  exact map_related (mapperRefinement cx.library more) budget rfl node

theorem relates_map (cx : Context) {budget budget' : Nat} (h : budget ≤ budget') :
    (mapperRefinement cx.library 0).Relates (map cx budget) (map cx budget') := by
  rintro document node name path scope _ rfl
  exact map_refines cx h document node _

/-- The mapping of a schema ends in this way, with any budget that is large enough. -/
def Ends (cx : Context) (document : Document) (node : Node) (request : Request)
    (session : Session) (result : Except Failure WireType) (session' : Session) : Prop :=
  ∃ budget, map cx budget document node request session = some (result, session')

theorem Ends.unique {cx : Context} {document : Document} {node : Node} {request : Request}
    {session session' session'' : Session} {result result' : Except Failure WireType}
    (h : Ends cx document node request session result session')
    (h' : Ends cx document node request session result' session'') :
    result = result' ∧ session' = session'' := by
  obtain ⟨budget, hrun⟩ := h
  obtain ⟨budget', hrun'⟩ := h'
  exact Prod.mk.inj (run_unique (fun hle ↦ map_refines cx hle document node request) hrun hrun')

end Wire

end SchemaBindings
