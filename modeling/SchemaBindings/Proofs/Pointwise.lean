import SchemaBindings.Proofs.Flattening

/-!
# Merged objects name by name

An object that is merged into another one changes each property by the schema that it has itself
under that name, and nothing else. What a composition of objects has under a name is therefore what
its members have under that name, merged in their order: whether two members agree about one
property does not depend on the others, and no property is lost.
-/

namespace SchemaBindings

variable {path name : String}

/-- The schemas that are declared for one place, merged from the left, if there are any. -/
def Node.mergeAll (path : String) : List Node → Except Failure (Option Node)
  | [] => .ok none
  | node :: rest => (rest.foldlM (Node.merge path) node).map some

/-- Merging in turn what some schemas declare for a place skips those that declare nothing. -/
theorem foldlM_mergeAdditional {α : Type} (declared : α → Option Node) (schemas : List α) :
    schemas.foldlM (fun soFar schema ↦ mergeAdditional path soFar (declared schema)) none =
      Node.mergeAll path (schemas.filterMap declared) := by
  have hsome : ∀ (schemas : List α) (node : Node),
      schemas.foldlM (fun soFar schema ↦ mergeAdditional path soFar (declared schema))
          (some node) =
        ((schemas.filterMap declared).foldlM (Node.merge path) node).map some := by
    intro schemas
    induction schemas with
    | nil => exact fun node ↦ rfl
    | cons schema rest ih =>
      intro node
      rw [List.foldlM_cons, List.filterMap_cons]
      cases declared schema with
      | none => exact ih node
      | some other =>
        rw [mergeAdditional_some]
        dsimp only
        rw [List.foldlM_cons]
        cases Node.merge path node other with
        | error failure => rfl
        | ok merged => exact ih merged
  induction schemas with
  | nil => rfl
  | cons schema rest ih =>
    rw [List.foldlM_cons, List.filterMap_cons, mergeAdditional_none_left]
    cases declared schema with
    | none => exact ih
    | some node => exact hsome rest node

theorem Node.mergeAll_concat {α : Type} (declared : α → Option Node) (schemas : List α) (last : α) :
    Node.mergeAll path ((schemas ++ [last]).filterMap declared) = (do
      let soFar ← Node.mergeAll path (schemas.filterMap declared)
      mergeAdditional path soFar (declared last)) := by
  rw [← foldlM_mergeAdditional, ← foldlM_mergeAdditional, List.foldlM_append]
  simp only [List.foldlM_cons, List.foldlM_nil, bind_pure]

theorem Node.mergeAll_singleton {α : Type} (declared : α → Option Node) (schema : α) :
    Node.mergeAll path ([schema].filterMap declared) = .ok (declared schema) := by
  rw [← foldlM_mergeAdditional, List.foldlM_cons, mergeAdditional_none_left]
  rfl

theorem foldlM_concat_eq_ok {α β : Type} {step : β → α → Except Failure β} {xs : List α} {x : α}
    {start result : β} : (xs ++ [x]).foldlM step start = .ok result ↔
      ∃ soFar, xs.foldlM step start = .ok soFar ∧ step soFar x = .ok result := by
  rw [List.foldlM_append, Failure.bind_eq_ok]
  simp only [List.foldlM_cons, List.foldlM_nil, bind_pure]

theorem addAllNew_of_nodup {seen others : List String} (h : (seen ++ others).Nodup) :
    addAllNew seen others = seen ++ others := by
  induction others generalizing seen with
  | nil => exact (List.append_nil seen).symm
  | cons x rest ih =>
    have hnew : x ∉ seen := by
      intro hx
      exact (List.nodup_append.1 h).2.2 x hx x (.head rest) rfl
    have hmoved : (seen ++ [x] ++ rest).Nodup := by simpa using h
    calc
      addAllNew seen (x :: rest) = addAllNew (seen ++ [x]) rest := by
        change addAllNew (addNew seen x) rest = _
        rw [addNew, if_neg hnew]
      _ = seen ++ [x] ++ rest := ih hmoved
      _ = seen ++ x :: rest := by simp

theorem addAllNew_nil {others : List String} (h : others.Nodup) : addAllNew [] others = others :=
  addAllNew_of_nodup h

/-! ## Two objects -/

section Properties

variable {left right merged : List (String × Node)}

/-- Under every name stands what both objects have there, merged. -/
theorem get?_mergeProperties (hright : (Table.keys right).Nodup)
    (h : mergeProperties path left right = .ok merged) (name : String) :
    mergeAdditional (Pointer.child path name) (Table.get? name left) (Table.get? name right) =
      .ok (Table.get? name merged) := by
  induction right generalizing left with
  | nil =>
    cases h
    exact mergeAdditional_none_right _
  | cons entry rest ih =>
    obtain ⟨first, node⟩ := entry
    obtain ⟨hfirst, hrest⟩ := List.nodup_cons.1 hright
    obtain ⟨next, hnext, hmerged⟩ := mergeProperties_cons_eq_ok.1 h
    have hlast := ih hrest hmerged
    by_cases hname : first = name
    · subst hname
      have hlater : Table.get? first rest = none := Table.get?_eq_none_iff.2 hfirst
      rw [hlater, mergeAdditional_none_right, Table.get?_put_self] at hlast
      rw [Table.get?, if_pos rfl, hnext, ← hlast]
    · rw [Table.get?_put_of_ne (Ne.symm hname)] at hlast
      rw [Table.get?, if_neg hname, hlast]

/-- The properties of two objects can be merged if those that both of them have can. -/
theorem exists_mergeProperties (hright : (Table.keys right).Nodup)
    (h : ∀ name, ∃ node, mergeAdditional (Pointer.child path name) (Table.get? name left)
      (Table.get? name right) = .ok node) :
    ∃ merged, mergeProperties path left right = .ok merged := by
  induction right generalizing left with
  | nil => exact ⟨left, rfl⟩
  | cons entry rest ih =>
    obtain ⟨name, node⟩ := entry
    obtain ⟨hname, hrest⟩ := List.nodup_cons.1 hright
    obtain ⟨found, hfound⟩ := h name
    rw [Table.get?, if_pos rfl] at hfound
    obtain ⟨next, rfl⟩ : ∃ next, found = some next := by
      cases hold : Table.get? name left with
      | none =>
        rw [hold] at hfound
        cases hfound
        exact ⟨node, rfl⟩
      | some existing =>
        rw [hold, mergeAdditional_some] at hfound
        obtain ⟨merged, -, rfl⟩ := Failure.map_eq_ok.1 hfound
        exact ⟨merged, rfl⟩
    have hothers : ∀ other, ∃ node, mergeAdditional (Pointer.child path other)
        (Table.get? other (Table.put name next left)) (Table.get? other rest) = .ok node := by
      intro other
      by_cases hother : name = other
      · subst hother
        rw [Table.get?_eq_none_iff.2 hname]
        exact ⟨_, mergeAdditional_none_right _⟩
      · obtain ⟨node, hnode⟩ := h other
        rw [Table.get?, if_neg hother] at hnode
        exact ⟨node, by rw [Table.get?_put_of_ne (Ne.symm hother), hnode]⟩
    obtain ⟨merged, hmerged⟩ := ih hrest hothers
    exact ⟨merged, mergeProperties_cons_eq_ok.2 ⟨next, hfound, hmerged⟩⟩

end Properties

namespace ObjectSchema

variable {left right merged : ObjectSchema}

@[simp]
theorem properties_mk (properties : Option (List (String × Node)))
    (required : Option (List String)) (additional : Option Node) (pattern : Bool) :
    (mk properties required additional pattern).properties = properties := rfl

@[simp]
theorem members_mk (properties : Option (List (String × Node)))
    (required : Option (List String)) (additional : Option Node) (pattern : Bool) :
    (mk properties required additional pattern).members = properties.getD [] := rfl

/-- One object merged into another, place by place. -/
structure Merged (path : String) (left right merged : ObjectSchema) : Prop where
  properties : merged.properties.isSome = (left.properties.isSome || right.properties.isSome)
  keys : Table.keys merged.members =
    addAllNew (Table.keys left.members) (Table.keys right.members)
  members (name : String) :
    mergeAdditional (Pointer.child (Pointer.child path "properties") name)
      (Table.get? name left.members) (Table.get? name right.members) =
        .ok (Table.get? name merged.members)
  required : merged.required = mergeRequired left.required right.required
  additional : mergeAdditional (Pointer.child path "additionalProperties") left.additional
    right.additional = .ok merged.additional
  pattern : merged.pattern = (left.pattern || right.pattern)

theorem merged_of_merge (hright : (Table.keys right.members).Nodup)
    (h : ObjectSchema.merge path left right = .ok merged) : left.Merged path right merged := by
  have hkeys := keys_of_merge h
  have hmembers := get?_mergeProperties hright (members_of_merge h)
  have hadditional := additional_of_merge h
  obtain ⟨properties, additional, hproperties, -, rfl⟩ := merge_eq_ok.1 h
  refine ⟨?_, hkeys, hmembers, rfl, hadditional, rfl⟩
  rw [properties_mk]
  cases hdeclared : right.properties with
  | none =>
    rw [hdeclared, mergeMembers] at hproperties
    cases hproperties
    rw [Option.isSome_none, Bool.or_false]
  | some declared =>
    rw [hdeclared, mergeMembers] at hproperties
    obtain ⟨found, -, rfl⟩ := Failure.map_eq_ok.1 hproperties
    rw [Option.isSome_some, Option.isSome_some, Bool.or_true]

/-- Two objects can be merged if they can be merged in every place that both of them speak of. -/
theorem exists_merge (hright : (Table.keys right.members).Nodup)
    (hmembers : ∀ name, ∃ node,
      mergeAdditional (Pointer.child (Pointer.child path "properties") name)
        (Table.get? name left.members) (Table.get? name right.members) = .ok node)
    (hadditional : ∃ node, mergeAdditional (Pointer.child path "additionalProperties")
      left.additional right.additional = .ok node) :
    ∃ merged, ObjectSchema.merge path left right = .ok merged := by
  obtain ⟨additional, hadditional⟩ := hadditional
  have hproperties : ∃ properties, mergeMembers (Pointer.child path "properties")
      left.properties right.properties = .ok properties := by
    unfold members at hright hmembers
    cases hdeclared : right.properties with
    | none => exact ⟨left.properties, rfl⟩
    | some declared =>
      rw [hdeclared] at hright hmembers
      obtain ⟨found, hfound⟩ := exists_mergeProperties hright hmembers
      exact ⟨some found, Failure.map_eq_ok.2 ⟨found, hfound, rfl⟩⟩
  obtain ⟨properties, hproperties⟩ := hproperties
  exact ⟨_, merge_eq_ok.2 ⟨properties, additional, hproperties, hadditional, rfl⟩⟩

/-! ## Many objects -/

/-- What an object has under a name. -/
def declared (name : String) (schema : ObjectSchema) : Option Node :=
  Table.get? name schema.members

theorem declared_mem_inner {schema : ObjectSchema} {node : Node}
    (h : schema.declared name = some node) : node ∈ (Kind.object schema).inner :=
  property_mem_inner (Table.mem_of_get?_eq_some h)

/-- Many objects merged into one, place by place. -/
structure MergedAll (path : String) (objects : List ObjectSchema) (merged : ObjectSchema) :
    Prop where
  properties : merged.properties.isSome = objects.any (·.properties.isSome)
  keys : Table.keys merged.members = addAllNew [] (objects.flatMap fun o ↦ Table.keys o.members)
  members (name : String) :
    Node.mergeAll (Pointer.child (Pointer.child path "properties") name)
      (objects.filterMap (declared name)) = .ok (declared name merged)
  additional : Node.mergeAll (Pointer.child path "additionalProperties")
    (objects.filterMap additional) = .ok merged.additional
  pattern : merged.pattern = objects.any pattern

variable {objects : List ObjectSchema} {first last soFar : ObjectSchema}

theorem mergedAll_singleton (hnames : (Table.keys first.members).Nodup) :
    MergedAll path [first] first where
  properties := by simp
  keys := by rw [List.flatMap_singleton, addAllNew_nil hnames]
  members name := by rw [Node.mergeAll_singleton]
  additional := by rw [Node.mergeAll_singleton]
  pattern := by simp

theorem MergedAll.concat (hsoFar : MergedAll path objects soFar)
    (hlast : soFar.Merged path last merged) : MergedAll path (objects ++ [last]) merged where
  properties := by simp [hlast.properties, hsoFar.properties]
  keys := by
    rw [hlast.keys, hsoFar.keys, List.flatMap_append, List.flatMap_singleton]
    exact List.foldl_append.symm
  members name := by
    rw [Node.mergeAll_concat, hsoFar.members name]
    exact hlast.members name
  additional := by
    rw [Node.mergeAll_concat, hsoFar.additional]
    exact hlast.additional
  pattern := by simp [hlast.pattern, hsoFar.pattern]

theorem mergedAll_of_foldlM {rest : List ObjectSchema}
    (hnames : ∀ schema ∈ first :: rest, (Table.keys schema.members).Nodup)
    (h : rest.foldlM (ObjectSchema.merge path) first = .ok merged) :
    MergedAll path (first :: rest) merged := by
  induction rest using List.reverseRecOn generalizing merged with
  | nil =>
    cases h
    exact mergedAll_singleton (hnames first (.head _))
  | append_singleton rest last ih =>
    obtain ⟨soFar, hsoFar, hmerge⟩ := foldlM_concat_eq_ok.1 h
    have hlast := merged_of_merge (hnames last (by simp)) hmerge
    have hbefore : ∀ schema ∈ first :: rest, (Table.keys schema.members).Nodup :=
      fun schema hschema ↦ hnames schema (List.mem_append_left [last] hschema)
    exact (ih hbefore hsoFar).concat hlast

/-- Objects can be merged in turn if what they have can be merged in every place. -/
theorem exists_foldlM_merge {rest : List ObjectSchema}
    (hnames : ∀ schema ∈ first :: rest, (Table.keys schema.members).Nodup)
    (hmembers : ∀ name, ∃ node,
      Node.mergeAll (Pointer.child (Pointer.child path "properties") name)
        ((first :: rest).filterMap (declared name)) = .ok node)
    (hadditional : ∃ node, Node.mergeAll (Pointer.child path "additionalProperties")
      ((first :: rest).filterMap ObjectSchema.additional) = .ok node) :
    ∃ merged, rest.foldlM (ObjectSchema.merge path) first = .ok merged := by
  induction rest using List.reverseRecOn with
  | nil => exact ⟨first, rfl⟩
  | append_singleton rest last ih =>
    have hbefore : ∀ schema ∈ first :: rest, (Table.keys schema.members).Nodup :=
      fun schema hschema ↦ hnames schema (List.mem_append_left [last] hschema)
    rw [← List.cons_append, Node.mergeAll_concat] at hadditional
    simp only [← List.cons_append, Node.mergeAll_concat] at hmembers
    have hmembersBefore : ∀ name, ∃ node,
        Node.mergeAll (Pointer.child (Pointer.child path "properties") name)
          ((first :: rest).filterMap (declared name)) = .ok node := by
      intro name
      obtain ⟨_, hnode⟩ := hmembers name
      obtain ⟨node, hbefore, -⟩ := Failure.bind_eq_ok.1 hnode
      exact ⟨node, hbefore⟩
    have hadditionalBefore : ∃ node, Node.mergeAll (Pointer.child path "additionalProperties")
        ((first :: rest).filterMap ObjectSchema.additional) = .ok node := by
      obtain ⟨_, hnode⟩ := hadditional
      obtain ⟨node, hbefore, -⟩ := Failure.bind_eq_ok.1 hnode
      exact ⟨node, hbefore⟩
    obtain ⟨soFar, hsoFar⟩ := ih hbefore hmembersBefore hadditionalBefore
    have hall := mergedAll_of_foldlM hbefore hsoFar
    rw [hall.additional] at hadditional
    have hmembersLast : ∀ name, ∃ node,
        mergeAdditional (Pointer.child (Pointer.child path "properties") name)
          (Table.get? name soFar.members) (Table.get? name last.members) = .ok node := by
      intro name
      have hname := hmembers name
      rw [hall.members name] at hname
      exact hname
    obtain ⟨merged, hmerged⟩ := exists_merge (hnames last (by simp)) hmembersLast hadditional
    exact ⟨merged, foldlM_concat_eq_ok.2 ⟨soFar, hsoFar, hmerged⟩⟩

end ObjectSchema

/-! ## Compositions of objects -/

def Kind.object? : Kind → Option ObjectSchema
  | .object schema => some schema
  | _ => none

/-- What is demanded of objects, or nothing. -/
def Kind.IsObjectOrFree (kind : Kind) : Prop :=
  kind = .unconstrained ∨ ∃ schema, kind = .object schema

theorem foldlM_merge_objects {kinds : List Kind} (hkinds : ∀ kind ∈ kinds, kind.IsObjectOrFree)
    (soFar : ObjectSchema) : kinds.foldlM (Kind.merge path) (.object soFar) =
      ((kinds.filterMap Kind.object?).foldlM (ObjectSchema.merge path) soFar).map .object := by
  induction kinds generalizing soFar with
  | nil => rfl
  | cons kind rest ih =>
    obtain ⟨hkind, hrest⟩ := List.forall_mem_cons.1 hkinds
    obtain rfl | ⟨schema, rfl⟩ := hkind
    · exact ih hrest soFar
    · change (ObjectSchema.merge path soFar schema).map Kind.object >>= _ = _
      rw [List.filterMap_cons]
      dsimp only [Kind.object?]
      rw [List.foldlM_cons]
      cases ObjectSchema.merge path soFar schema with
      | error failure => rfl
      | ok merged => exact ih hrest merged

/-- Kinds without constraints are skipped, and the first object is what the others go into. -/
theorem mergeKinds_objects (path : String) {kinds : List Kind}
    (hkinds : ∀ kind ∈ kinds, kind.IsObjectOrFree) {first : ObjectSchema} {rest : List ObjectSchema}
    (hobjects : kinds.filterMap Kind.object? = first :: rest) :
    mergeKinds path kinds = (rest.foldlM (ObjectSchema.merge path) first).map .object := by
  unfold mergeKinds
  induction kinds with
  | nil => cases hobjects
  | cons kind others ih =>
    obtain ⟨hkind, hothers⟩ := List.forall_mem_cons.1 hkinds
    obtain rfl | ⟨schema, rfl⟩ := hkind
    · exact ih hothers hobjects
    · cases hobjects
      exact foldlM_merge_objects hothers _

/-- A composition of objects and of schemas without constraints can be merged exactly if the
schemas of each property can, and the schemas of all other properties. The merged object has all
properties in the order in which they were first declared, each with what the members declare for
it merged in their order. -/
theorem mergeAllOf_pointwise {library : Library} {document : Document} {members : List Node}
    {budget : Nat} {session session' : Session} {kinds : List Kind}
    (hlibrary : library.IsRegular document) (hmembers : ∀ member ∈ members, member.kind.Regular)
    (hflat : Flatten.members (Flatten.collect library budget) document
      (Pointer.child path "allOf") 0 members session = some (.ok kinds, session'))
    (hkinds : ∀ kind ∈ kinds, kind.IsObjectOrFree) (hobject : ∃ schema, Kind.object schema ∈ kinds)
    (outer : Node) :
    ((∃ merged, mergeAllOf library budget document outer members path session =
        some (.ok merged, session')) ↔
      (∀ name, ∃ node, Node.mergeAll (Pointer.child (Pointer.child path "properties") name)
        ((kinds.filterMap Kind.object?).filterMap (ObjectSchema.declared name)) = .ok node) ∧
      ∃ node, Node.mergeAll (Pointer.child path "additionalProperties")
        ((kinds.filterMap Kind.object?).filterMap ObjectSchema.additional) = .ok node) ∧
    ∀ merged after, mergeAllOf library budget document outer members path session =
        some (.ok merged, after) →
      ∃ schema, merged = .mk outer.title outer.description (.object schema) ∧
        ObjectSchema.MergedAll path (kinds.filterMap Kind.object?) schema ∧
        schema.required = none := by
  have hregular := hlibrary.members hmembers hflat
  have hnames : ∀ schema ∈ kinds.filterMap Kind.object?, (Table.keys schema.members).Nodup := by
    intro schema hschema
    obtain ⟨kind, hkind, heq⟩ := List.mem_filterMap.1 hschema
    obtain rfl | ⟨other, rfl⟩ := hkinds kind hkind
    · cases heq
    · cases heq
      exact (hregular _ hkind).here
  obtain ⟨first, rest, hfirst⟩ : ∃ first rest, kinds.filterMap Kind.object? = first :: rest := by
    obtain ⟨schema, hschema⟩ := hobject
    apply List.exists_cons_of_ne_nil
    exact List.ne_nil_of_mem (List.mem_filterMap.2 ⟨_, hschema, rfl⟩)
  have hmerge := mergeKinds_objects path hkinds hfirst
  rw [hfirst] at hnames ⊢
  have hrun : ∀ merged after, mergeAllOf library budget document outer members path session =
      some (.ok merged, after) → ∃ schema,
        rest.foldlM (ObjectSchema.merge path) first = .ok schema ∧
        merged = .mk outer.title outer.description (Kind.object schema).withoutRequired := by
    intro merged after hmerged
    obtain ⟨found, kind, hfound, hkind, rfl⟩ := mergeAllOf_eq_ok.1 hmerged
    cases hflat.symm.trans hfound
    rw [hmerge] at hkind
    obtain ⟨schema, hschema, rfl⟩ := Failure.map_eq_ok.1 hkind
    exact ⟨schema, hschema, rfl⟩
  constructor
  · constructor
    · rintro ⟨merged, hmerged⟩
      obtain ⟨schema, hschema, -⟩ := hrun _ _ hmerged
      have hall := ObjectSchema.mergedAll_of_foldlM hnames hschema
      exact ⟨fun name ↦ ⟨_, hall.members name⟩, _, hall.additional⟩
    · rintro ⟨hproperties, hadditional⟩
      obtain ⟨schema, hschema⟩ :=
        ObjectSchema.exists_foldlM_merge hnames hproperties hadditional
      rw [hschema] at hmerge
      exact ⟨_, mergeAllOf_eq_ok.2 ⟨kinds, _, hflat, hmerge, rfl⟩⟩
  · intro merged after hmerged
    obtain ⟨schema, hschema, rfl⟩ := hrun merged after hmerged
    have hall := ObjectSchema.mergedAll_of_foldlM hnames hschema
    obtain ⟨properties, required, additional, pattern⟩ := schema
    exact ⟨_, rfl, ⟨hall.properties, hall.keys, hall.members, hall.additional, hall.pattern⟩, rfl⟩

namespace Lantern

def lantern : Document where
  uri := "Lantern"
  title := "Lantern"
  family := .schema
  definitionsRoot := "#/definitions"
  definitions := []
  methods := []
  content := .null

def base : ObjectSchema := .mk
  (some [("on", .ofKind (.primitive .boolean none)), ("level", .ofKind (.primitive .integer none))])
  (some ["on"]) none false

/-- The level has a bound and the mode is new. -/
def extension : ObjectSchema := .mk
  (some [("mode", .ofKind (.enumeration ["day", "night"])),
    ("level", .ofKind (.primitive .integer (some (.zero false))))])
  none (some (.ofKind (.primitive .string none))) false

def members : List Node := [.ofKind .unconstrained, .ofKind (.allOf [.ofKind (.object base)]),
  .ofKind (.object extension)]

def outer : Node := .mk (some "Lantern") none (.allOf members)

theorem regular_members : ∀ member ∈ members, member.kind.Regular := by
  have hprimitive : ∀ type minimum, (Kind.primitive type minimum).Regular :=
    fun _ _ ↦ .of_leaf trivial rfl
  have henumeration : ∀ values, (Kind.enumeration values).Regular :=
    fun _ ↦ .of_leaf trivial rfl
  have hbase : (Kind.object base).Regular := by
    refine .intro (List.nodup_iff_pairwise_ne.2 (by simp [base, Table.keys])) ?_
    rintro node (_ | ⟨_, _ | ⟨_, _ | _⟩⟩)
    · exact hprimitive _ _
    · exact hprimitive _ _
  have hextension : (Kind.object extension).Regular := by
    refine .intro (List.nodup_iff_pairwise_ne.2 (by simp [extension, Table.keys])) ?_
    rintro node (_ | ⟨_, _ | ⟨_, _ | ⟨_, ⟨⟩⟩⟩⟩)
    · exact henumeration _
    · exact hprimitive _ _
    · exact hprimitive _ _
  rintro member (_ | ⟨_, _ | ⟨_, _ | ⟨_, ⟨⟩⟩⟩⟩)
  · exact .of_leaf trivial rfl
  · exact .intro trivial (List.forall_mem_singleton.2 hbase)
  · exact hextension

/-- A bound that one member has on a property is kept beside what the others say about it. -/
theorem members_merge_pointwise :
    ∃ schema, mergeAllOf {} 2 lantern outer members "Lantern#/s" {} =
        some (.ok (.mk (some "Lantern") none (.object schema)), {}) ∧
      Table.keys schema.members = ["on", "level", "mode"] ∧
      schema.declared "level" = some (.ofKind (.primitive .integer (some (.zero false)))) ∧
      schema.required = none := by
  have hflat : Flatten.members (Flatten.collect {} 2) lantern (Pointer.child "Lantern#/s" "allOf") 0
      members {} = some (.ok [.unconstrained, .object base, .object extension], {}) := rfl
  have hkinds : ∀ kind ∈ [Kind.unconstrained, .object base, .object extension],
      kind.IsObjectOrFree := by simp [Kind.IsObjectOrFree]
  have hlibrary : ({} : Library).IsRegular lantern := ⟨.null, nofun⟩
  obtain ⟨-, hresult⟩ := mergeAllOf_pointwise hlibrary regular_members hflat hkinds
    ⟨base, .tail _ (.head _)⟩ outer
  obtain ⟨merged, hmerged⟩ : ∃ merged, mergeAllOf {} 2 lantern outer members "Lantern#/s" {} =
      some (.ok merged, {}) := ⟨_, rfl⟩
  obtain ⟨schema, rfl, hall, hrequired⟩ := hresult _ _ hmerged
  refine ⟨schema, hmerged, ?_, ?_, hrequired⟩
  · rw [hall.keys]
    decide
  · exact Except.ok.inj (hall.members "level").symm

end Lantern

end SchemaBindings
