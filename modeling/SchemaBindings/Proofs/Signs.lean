import SchemaBindings.Proofs.Bounds
import SchemaBindings.Proofs.Tuples

/-!
# Minimums of merged whole numbers

A whole number is carried without a sign if its schema bounds it below by zero or more. For a
composition the bound may stand at any of its members. Types of whole numbers keep the first bound
that they come to, wherever it stands; constants keep what the first of them says, and a bound that
only a later one has is lost. So constants are carried by their minimum exactly if the first of
them has it.
-/

namespace SchemaBindings

open Mapping

theorem Double.isNonnegative_of_same {x y : Double} (h : x.same y) :
    x.isNonnegative = y.isNonnegative := by
  unfold same at h
  obtain heq | hzeros := Bool.or_eq_true_iff.1 h
  · rw [eq_of_beq heq]
  · obtain ⟨hx, hy⟩ := Bool.and_eq_true_iff.1 hzeros
    simp [isNonnegative, hx, hy]

namespace Kind

/-- Whole numbers from a minimum on: all of them, or the one that is given. -/
def integer (value : Option Int) (minimum : Option Double) : Kind :=
  match value with
  | none => .primitive .integer minimum
  | some n => .constant (.number (.whole n)) minimum

/-- What a kind of numbers says on the least one; other kinds say nothing. -/
def minimum? : Kind → Option (Option Double)
  | .primitive _ minimum => some minimum
  | .constant _ minimum => some minimum
  | _ => none

/-- What the members of a composition say on the least number, in their order. -/
def minimums (kinds : List Kind) : List (Option Double) := kinds.filterMap minimum?

/-- The minimum of merged whole numbers: the first that is there, or for one number the minimum
that stands beside its first mention. -/
def keptMinimum (value : Option Int) (minimums : List (Option Double)) : Option Double :=
  if value.isSome then minimums.head?.join else minimums.findSome? id

variable {path : String} {value : Option Int} {m n : Option Double} {kinds : List Kind}

@[simp]
theorem minimum?_integer : (integer value m).minimum? = some m := by
  cases value <;> rfl

theorem keptMinimum_cons (rest : List (Option Double)) :
    keptMinimum value (keptMinimum value [m, n] :: rest) = keptMinimum value (m :: n :: rest) := by
  unfold keptMinimum
  cases value with
  | some _ => rfl
  | none => cases m <;> cases n <;> rfl

theorem keptMinimum_singleton : keptMinimum value [m] = m := by
  unfold keptMinimum
  cases value with
  | some _ => rfl
  | none => cases m <;> rfl

/-- The minimum that is kept is one of the minimums. -/
theorem keptMinimum_mem {minimums : List (Option Double)} {bound : Double}
    (h : keptMinimum value minimums = some bound) : some bound ∈ minimums := by
  unfold keptMinimum at h
  split at h
  · exact List.mem_of_mem_head? (Option.join_eq_some_iff.1 h)
  · obtain ⟨found, hfound, rfl⟩ := List.exists_of_findSome?_eq_some h
    exact hfound

theorem isSome_keptMinimum_none {minimums : List (Option Double)} :
    (keptMinimum none minimums).isSome ↔ ∃ bound, some bound ∈ minimums := by
  change (minimums.findSome? id).isSome ↔ _
  rw [List.findSome?_isSome_iff]
  simp [Option.isSome_iff_exists]

theorem isSome_keptMinimum_some {number : Int} {minimums : List (Option Double)} :
    (keptMinimum (some number) minimums).isSome ↔ ∃ bound, minimums.head? = some (some bound) := by
  change minimums.head?.join.isSome ↔ _
  simp only [Option.isSome_iff_exists, Option.join_eq_some_iff]

/-- The merged number has a minimum if one of the numbers has, unless they are one number that is
first mentioned without. -/
theorem isSome_keptMinimum_iff {minimums : List (Option Double)} :
    ((keptMinimum value minimums).isSome ↔ ∃ bound, some bound ∈ minimums) ↔
      value = none ∨ (∃ bound, minimums.head? = some (some bound)) ∨
        ∀ minimum ∈ minimums, minimum = none := by
  cases value with
  | none => exact iff_of_true isSome_keptMinimum_none (.inl rfl)
  | some number =>
    rw [isSome_keptMinimum_some, or_iff_right (Option.some_ne_none number)]
    constructor
    · intro h
      by_cases hany : ∃ bound, some bound ∈ minimums
      · exact .inl (h.2 hany)
      · refine .inr fun minimum hminimum ↦ Option.eq_none_iff_forall_ne_some.2 ?_
        rintro bound rfl
        exact hany ⟨bound, hminimum⟩
    · rintro (⟨bound, hbound⟩ | hnone)
      · exact iff_of_true ⟨bound, hbound⟩ ⟨bound, List.mem_of_mem_head? hbound⟩
      · have hbounds : ∀ bound, some bound ∉ minimums :=
          fun bound hbound ↦ nomatch hnone _ hbound
        refine iff_of_false ?_ fun ⟨bound, hbound⟩ ↦ hbounds bound hbound
        rintro ⟨bound, hbound⟩
        exact hbounds bound (List.mem_of_mem_head? hbound)

/-! ## Merging -/

theorem merge_integer (hequal : ∀ a b, m = some a → n = some b → a.same b) :
    Kind.merge path (integer value m) (integer value n) =
      .ok (integer value (keptMinimum value [m, n])) := by
  cases value with
  | some number =>
    have hsame : (Json.number (.whole number)).same (.number (.whole number)) := by
      simp [Json.same, Json.Number.same]
    exact if_pos hsame
  | none =>
    change mergeScalars path (.primitive .integer m) (.primitive .integer n) = _
    rw [mergeScalars_primitive]
    cases m with
    | none => cases n <;> rfl
    | some a =>
      cases n with
      | none => rfl
      | some b =>
        rw [mergeMinimums, if_pos (hequal a b rfl rfl)]
        rfl

/-- All minimums that are there are the same number. -/
def SameMinimums (minimums : List (Option Double)) : Prop :=
  ∀ a b, some a ∈ minimums → some b ∈ minimums → a.same b

/-- Whole numbers of one sort, or no demand at all. -/
def IsIntegerOrFree (value : Option Int) (kind : Kind) : Prop :=
  kind = .unconstrained ∨ ∃ minimum, kind = integer value minimum

theorem foldlM_merge_integers (hkinds : ∀ kind ∈ kinds, kind.IsIntegerOrFree value)
    (hequal : SameMinimums (m :: minimums kinds)) :
    kinds.foldlM (Kind.merge path) (integer value m) =
      .ok (integer value (keptMinimum value (m :: minimums kinds))) := by
  induction kinds generalizing m with
  | nil =>
    change Except.ok (integer value m) = .ok (integer value (keptMinimum value [m]))
    rw [keptMinimum_singleton]
  | cons kind rest ih =>
    obtain ⟨hkind, hrest⟩ := List.forall_mem_cons.1 hkinds
    rw [List.foldlM_cons]
    obtain rfl | ⟨n, rfl⟩ := hkind
    · have hfree : Kind.merge path (integer value m) .unconstrained = .ok (integer value m) :=
        mergeScalars_unconstrained _
      rw [hfree]
      exact ih hrest hequal
    · have hminimums : minimums (integer value n :: rest) = n :: minimums rest := by
        simp [minimums]
      rw [hminimums] at hequal ⊢
      have hfirst : ∀ a b, m = some a → n = some b → a.same b := by
        rintro a b rfl rfl
        exact hequal a b (.head _) (.tail _ (.head _))
      have hmem : ∀ a, some a ∈ keptMinimum value [m, n] :: minimums rest →
          some a ∈ m :: n :: minimums rest := by
        intro a ha
        obtain ha | ha := List.mem_cons.1 ha
        · have := keptMinimum_mem ha.symm
          grind
        · exact .tail _ (.tail _ ha)
      rw [merge_integer hfirst, ← keptMinimum_cons (minimums rest)]
      exact ih hrest fun a b ha hb ↦ hequal a b (hmem a ha) (hmem b hb)

/-- Whole numbers of one sort are merged in any order, and the minimum is kept as they say it. -/
theorem mergeKinds_integers (path : String) (hkinds : ∀ kind ∈ kinds, kind.IsIntegerOrFree value)
    (hsome : minimums kinds ≠ []) (hequal : SameMinimums (minimums kinds)) :
    mergeKinds path kinds = .ok (integer value (keptMinimum value (minimums kinds))) := by
  unfold mergeKinds
  induction kinds with
  | nil => exact absurd rfl hsome
  | cons kind rest ih =>
    obtain ⟨hkind, hrest⟩ := List.forall_mem_cons.1 hkinds
    rw [List.foldlM_cons, merge_unconstrained]
    obtain rfl | ⟨m, rfl⟩ := hkind
    · exact ih hrest hsome hequal
    · have hminimums : minimums (integer value m :: rest) = m :: minimums rest := by
        simp [minimums]
      rw [hminimums] at hequal ⊢
      exact foldlM_merge_integers hrest hequal

/-- The first of the numbers says how the merged one is carried, if it speaks for all of them. -/
theorem isUnsigned_keptMinimum {minimums : List (Option Double)} (hequal : SameMinimums minimums)
    (hkept : (keptMinimum value minimums).isSome ↔ ∃ bound, some bound ∈ minimums) :
    isUnsigned (keptMinimum value minimums) = minimums.any isUnsigned := by
  cases hfound : keptMinimum value minimums with
  | none =>
    rw [hfound] at hkept
    have hnone : ∀ minimum ∈ minimums, minimum = none := by
      intro minimum hminimum
      refine Option.eq_none_iff_forall_ne_some.2 ?_
      rintro bound rfl
      exact absurd (hkept.2 ⟨bound, hminimum⟩) Bool.false_ne_true
    symm
    refine List.any_eq_false.2 fun minimum hminimum ↦ ?_
    rw [hnone minimum hminimum]
    exact Bool.false_ne_true
  | some first =>
    have hfirst := keptMinimum_mem hfound
    have hsame : ∀ bound, some bound ∈ minimums → bound.isNonnegative = first.isNonnegative :=
      fun bound hbound ↦ Double.isNonnegative_of_same (hequal bound first hbound hfirst)
    rw [Bool.eq_iff_iff, List.any_eq_true]
    constructor
    · exact fun h ↦ ⟨some first, hfirst, h⟩
    · rintro ⟨minimum, hminimum, h⟩
      cases minimum with
      | none => cases h
      | some bound => exact (hsame bound hminimum).symm.trans h

end Kind

/-! ## Compositions of whole numbers -/

section Compositions

variable {cx : Context} {document : Document} {outer : Node} {members : List Node}
  {request : Request} {session session' : Session} {budget : Nat} {kinds : List Kind}
  {value : Option Int}

/-- A composition is merged into a kind that has the minimum of its members, if one of them has it,
and its values are carried without a sign on both sides exactly if that minimum is no less than
zero. -/
structure KeepsSign (cx : Context) (document : Document) (outer : Node) (members : List Node)
    (request : Request) (session : Session) (minimums : List (Option Double)) : Prop where
  merges : ∃ budget merged after minimum,
    mergeAllOf cx.library budget document outer members request.path session =
      some (.ok merged, after) ∧
    merged.kind.minimum? = some minimum ∧
    (minimum.isSome ↔ ∃ bound, some bound ∈ minimums) ∧ ∀ bound ∈ minimum, some bound ∈ minimums
  native : ∀ type after, Native.Ends cx document outer request session (.ok type) after →
    type.name = if minimums.any isUnsigned then "uint32_t" else "int32_t"
  wire : ∀ type after, Wire.Ends cx document outer request session (.ok type) after →
    type.name = cx.runtime.jsonType (if minimums.any isUnsigned then "DecUInt32" else "DecSInt32")

theorem mergeAllOf_unique {library : Library} {budget' : Nat} {path : String}
    {merged merged' : Node} {after after' : Session}
    (h : mergeAllOf library budget document outer members path session =
      some (.ok merged, after))
    (h' : mergeAllOf library budget' document outer members path session =
      some (.ok merged', after')) : merged = merged' := by
  have hunique := run_unique (fun hle ↦ mergeAllOf_refines library hle document outer members path)
    h h'
  exact Except.ok.inj (Prod.mk.inj hunique).1

theorem mergeAllOf_integers (hflat : Flatten.members (Flatten.collect cx.library budget) document
      (Pointer.child request.path "allOf") 0 members session = some (.ok kinds, session'))
    (hkinds : ∀ kind ∈ kinds, kind.IsIntegerOrFree value) (hsome : Kind.minimums kinds ≠ [])
    (hequal : Kind.SameMinimums (Kind.minimums kinds)) (outer : Node) :
    mergeAllOf cx.library budget document outer members request.path session =
      some (.ok (.mk outer.title outer.description
        (.integer value (Kind.keptMinimum value (Kind.minimums kinds)))), session') := by
  refine mergeAllOf_eq_ok.2 ⟨kinds, _, hflat, Kind.mergeKinds_integers _ hkinds hsome hequal, ?_⟩
  cases value <;> rfl

/-- What a composition is merged into is named as the composition is. -/
theorem Request.label_merged {label : String} {description : Option String} {kind : Kind}
    (h : request.label outer = .ok label) :
    request.label (.mk (outer.title.or (some label)) description kind) = .ok label := by
  unfold Request.label at h ⊢
  split
  · rename_i hname
    rwa [if_pos hname] at h
  · rename_i hname
    rw [if_neg hname] at h
    cases htitle : outer.givenTitle? with
    | none => rw [htitle] at h; cases h
    | some title =>
      rw [htitle] at h
      cases h
      unfold Node.givenTitle? at htitle ⊢
      obtain ⟨hgiven, -⟩ := Option.filter_eq_some_iff.1 htitle
      rw [hgiven] at htitle
      rw [Node.title_mk, hgiven, Option.some_or, htitle]

theorem primitive?_integer (title description : Option String) (value : Option Int)
    (minimum : Option Double) : (Node.mk title description (.integer value minimum)).primitive? =
      some (.integer, minimum) := by
  cases value <;> rfl

/-! A composition is mapped as what it is merged into, under its own name. -/

section Mapped

variable {label : String} {failure : Failure} {merged : Node} {minimum : Option Double}

theorem Native.map_merged (houter : outer.kind = .allOf members)
    (hlabel : request.label outer = .ok label)
    (hmerged : mergeAllOf cx.library budget document outer members request.path session =
      some (.ok merged, session')) :
    map cx (budget + 1) document outer request session =
      map cx budget document (.mk (outer.title.or (some label)) merged.description merged.kind)
        request session' :=
  (run_map_allOf houter hlabel).trans (run_bind_ok hmerged _)

theorem Wire.map_merged (houter : outer.kind = .allOf members)
    (hlabel : request.label outer = .ok label)
    (hmerged : mergeAllOf cx.library budget document outer members request.path session =
      some (.ok merged, session')) :
    map cx (budget + 1) document outer request session =
      map cx budget document (.mk (outer.title.or (some label)) merged.description merged.kind)
        request session' := by
  change step cx (mergeAllOf cx.library budget) (map cx budget) document outer request session = _
  unfold step
  rw [houter]
  dsimp only
  rw [hlabel]
  change (mergeAllOf cx.library budget document outer members request.path >>= _) session = _
  rw [run_bind, hmerged]
  rfl

theorem Wire.map_unlabelled (houter : outer.kind = .allOf members)
    (hlabel : request.label outer = .error failure) :
    map cx (budget + 1) document outer request session = some (.error failure, session) := by
  unfold map step
  rw [houter]
  dsimp only
  rw [hlabel]
  rfl

theorem Native.ends_of_merged_integer (houter : outer.kind = .allOf members)
    (hmerged : mergeAllOf cx.library budget document outer members request.path session =
      some (.ok (.mk outer.title outer.description (.integer value minimum)), session)) :
    Ends cx document outer request session
      ((request.label outer).map (.ofPrimitive cx.runtime .integer minimum)) session := by
  refine ⟨budget + 2, ?_⟩
  cases hlabel : request.label outer with
  | error failure => exact run_map_unlabelled (by simp [houter]) hlabel
  | ok label =>
    have hmore := mergeAllOf_refines cx.library (Nat.le_add_right budget 1) _ _ _ _ _ _ hmerged
    rw [map_merged houter hlabel hmore]
    dsimp only [Node.description_mk, Node.kind_mk]
    rw [map_primitive budget (primitive?_integer _ _ value minimum) (Request.label_merged hlabel)]
    rfl

theorem Wire.ends_of_merged_integer (houter : outer.kind = .allOf members)
    (hmerged : mergeAllOf cx.library budget document outer members request.path session =
      some (.ok (.mk outer.title outer.description (.integer value minimum)), session)) :
    Ends cx document outer request session
      ((request.label outer).map fun _ ↦ .named (cx.runtime.wireInteger minimum)) session := by
  refine ⟨budget + 2, ?_⟩
  cases hlabel : request.label outer with
  | error failure => exact map_unlabelled houter hlabel
  | ok label =>
    have hmore := mergeAllOf_refines cx.library (Nat.le_add_right budget 1) _ _ _ _ _ _ hmerged
    rw [map_merged houter hlabel hmore]
    dsimp only [Node.description_mk, Node.kind_mk]
    rw [map_primitive budget (primitive?_integer _ _ value minimum) (Request.label_merged hlabel)]
    rfl

end Mapped

theorem keepsSign_iff_isSome {minimums : List (Option Double)} {minimum : Option Double}
    (houter : outer.kind = .allOf members)
    (hmerged : mergeAllOf cx.library budget document outer members request.path session =
      some (.ok (.mk outer.title outer.description (.integer value minimum)), session))
    (hkept : minimum = Kind.keptMinimum value minimums) (hequal : Kind.SameMinimums minimums) :
    KeepsSign cx document outer members request session minimums ↔
      (minimum.isSome ↔ ∃ bound, some bound ∈ minimums) := by
  have hminimum : (Kind.integer value minimum).minimum? = some minimum := Kind.minimum?_integer
  constructor
  · intro h
    obtain ⟨_, merged, _, found, hrun, hfound, hpresent, -⟩ := h.merges
    cases mergeAllOf_unique hrun hmerged
    cases hfound.symm.trans hminimum
    exact hpresent
  · intro h
    have hmem : ∀ bound ∈ minimum, some bound ∈ minimums :=
      fun bound hbound ↦ Kind.keptMinimum_mem (hkept.symm.trans hbound)
    have hsign : isUnsigned minimum = minimums.any isUnsigned := by
      rw [hkept] at h ⊢
      exact Kind.isUnsigned_keptMinimum hequal h
    refine ⟨⟨budget, _, _, minimum, hmerged, hminimum, h, hmem⟩, ?_, ?_⟩
    · intro type after htype
      obtain ⟨heq, -⟩ := (Native.ends_of_merged_integer houter hmerged).unique htype
      obtain ⟨label, -, rfl⟩ := Failure.map_eq_ok.1 heq
      rw [← hsign]
      rfl
    · intro type after htype
      obtain ⟨heq, -⟩ := (Wire.ends_of_merged_integer houter hmerged).unique htype
      obtain ⟨label, -, rfl⟩ := Failure.map_eq_ok.1 heq
      rw [← hsign]
      rfl

/-- A composition of whole numbers, all of them or one, is always merged and mapped. It has the
minimum and the sign of its members exactly if they are no constants, or the first constant has the
minimum that any of them has. -/
theorem sign_survives_merging_iff (houter : outer.kind = .allOf members)
    (hflat : Flatten.members (Flatten.collect cx.library budget) document
      (Pointer.child request.path "allOf") 0 members session = some (.ok kinds, session'))
    (hkinds : ∀ kind ∈ kinds, kind.IsIntegerOrFree value)
    (hsome : ∃ minimum, Kind.integer value minimum ∈ kinds)
    (hequal : Kind.SameMinimums (Kind.minimums kinds)) :
    (mergeAllOf cx.library budget document outer members request.path session =
        some (.ok (.mk outer.title outer.description
          (.integer value (Kind.keptMinimum value (Kind.minimums kinds)))), session) ∧
      Native.Ends cx document outer request session ((request.label outer).map
        (.ofPrimitive cx.runtime .integer (Kind.keptMinimum value (Kind.minimums kinds)))) session ∧
      Wire.Ends cx document outer request session ((request.label outer).map fun _ ↦
        .named (cx.runtime.wireInteger (Kind.keptMinimum value (Kind.minimums kinds)))) session) ∧
    (KeepsSign cx document outer members request session (Kind.minimums kinds) ↔
      value = none ∨ (∃ bound, (Kind.minimums kinds).head? = some (some bound)) ∨
        ∀ minimum ∈ Kind.minimums kinds, minimum = none) := by
  have hminimums : Kind.minimums kinds ≠ [] := by
    obtain ⟨minimum, hminimum⟩ := hsome
    exact List.ne_nil_of_mem (List.mem_filterMap.2 ⟨_, hminimum, Kind.minimum?_integer⟩)
  have hmerged := mergeAllOf_integers hflat hkinds hminimums hequal outer
  obtain ⟨-, -, -, -, hsession, -⟩ := mergeAllOf_eq_ok_iff.1 ⟨budget, hmerged⟩
  rw [hsession] at hmerged
  have hkeeps := keepsSign_iff_isSome houter hmerged rfl hequal
  exact ⟨⟨hmerged, Native.ends_of_merged_integer houter hmerged,
    Wire.ends_of_merged_integer houter hmerged⟩, hkeeps.trans Kind.isSome_keptMinimum_iff⟩

end Compositions

/-! A level, of which the last member says that it is never below zero. -/

namespace Fader

def fader : Document := ⟨"Fader", "Fader", .schema, "#/definitions", [], [], .null⟩

def cx : Context := ⟨⟨[fader]⟩, {}⟩

def zero : Double := .zero false

def members (value : Option Int) : List Node :=
  [.ofKind .unconstrained, .ofKind (.allOf [.ofKind (.integer value none)]),
    .ofKind (.integer value (some zero))]

def level (value : Option Int) : Node := .ofKind (.allOf (members value))

def request : Request := ⟨"level", "", "Fader#/level"⟩

def kinds (value : Option Int) : List Kind :=
  [.unconstrained, .integer value none, .integer value (some zero)]

theorem flat (value : Option Int) : Flatten.members (Flatten.collect cx.library 2) fader
    (Pointer.child request.path "allOf") 0 (members value) {} = some (.ok (kinds value), {}) := by
  cases value <;> rfl

theorem kinds_are_integers (value : Option Int) : ∀ kind ∈ kinds value,
    kind.IsIntegerOrFree value := by
  simp [kinds, Kind.IsIntegerOrFree]

theorem minimums_kinds (value : Option Int) : Kind.minimums (kinds value) = [none, some zero] := by
  cases value <;> rfl

theorem same_minimums (value : Option Int) : Kind.SameMinimums (Kind.minimums (kinds value)) := by
  intro a b ha hb
  rw [minimums_kinds] at ha hb
  simp only [List.mem_cons, reduceCtorEq, Option.some_inj, List.not_mem_nil, or_false, false_or]
    at ha hb
  rw [ha, hb]
  exact Double.same_refl zero

/-- A bound behind all other members is kept. -/
theorem last_bound_is_kept :
    KeepsSign cx fader (level none) (members none) request {} [none, some zero] := by
  have houter : (level none).kind = .allOf (members none) := rfl
  have hkeeps := (sign_survives_merging_iff houter (flat none) (kinds_are_integers none)
    ⟨none, .tail _ (.head _)⟩ (same_minimums none)).2
  rw [minimums_kinds] at hkeeps
  exact hkeeps.2 (.inl rfl)

/-- Of one number that is mentioned twice, a bound beside the second mention is lost, and with it
the type without a sign. -/
theorem last_bound_of_constant_is_lost :
    Flatten.members (Flatten.collect cx.library 2) fader
      (Pointer.child request.path "allOf") 0 (members (some 5)) {} =
        some (.ok [.unconstrained, .integer (some 5) none, .integer (some 5) (some zero)], {}) ∧
    (∃ type, Native.Ends cx fader (level (some 5)) request {} (.ok type) {} ∧
      type.name = "int32_t") ∧
    ¬KeepsSign cx fader (level (some 5)) (members (some 5)) request {} [none, some zero] := by
  have houter : (level (some 5)).kind = .allOf (members (some 5)) := rfl
  have hsome : Kind.minimums (kinds (some 5)) ≠ [] := List.cons_ne_nil _ _
  have hmerged := mergeAllOf_integers (flat (some 5)) (kinds_are_integers (some 5)) hsome
    (same_minimums (some 5)) (level (some 5))
  refine ⟨flat (some 5), ⟨_, Native.ends_of_merged_integer houter hmerged, rfl⟩, fun h ↦ ?_⟩
  have hkept := (keepsSign_iff_isSome houter hmerged (by rw [minimums_kinds])
    (minimums_kinds (some 5) ▸ same_minimums (some 5))).1 h
  exact absurd (hkept.2 ⟨zero, .tail _ (.head _)⟩) (by decide)

end Fader

end SchemaBindings
