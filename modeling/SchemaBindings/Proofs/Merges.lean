import SchemaBindings.Proofs.Accessors
import SchemaBindings.Proofs.Handles

/-!
# Merging outputs

One output can be merged into another exactly if no section has a symbol of both with different
code. What then comes in are the entries under new symbols, in their order, behind what is there.
So outputs can be merged in any grouping with the same result and in any order with the same
contents, and an output that is merged into itself stays as it is.
-/

namespace SchemaBindings

open Code

/-! ## Lists without repetition -/

section Lists

variable {α : Type} [DecidableEq α]

theorem addNew_of_mem {seen : List α} {x : α} (h : x ∈ seen) : addNew seen x = seen := if_pos h

theorem addAllNew_of_subset {seen others : List α} (h : others ⊆ seen) :
    addAllNew seen others = seen := by
  induction others with
  | nil => rfl
  | cons x rest ih =>
    obtain ⟨hx, hrest⟩ := List.cons_subset.1 h
    change addAllNew (addNew seen x) rest = seen
    rw [addNew_of_mem hx, ih hrest]

end Lists

theorem Attempt.failure_andThen_iff {α : Type} {attempt : Attempt α} {next : α → Attempt α} :
    (attempt.andThen next).failure = none ↔
      attempt.failure = none ∧ (next attempt.value).failure = none := by
  refine ⟨fun h ↦ ⟨(andThen_failure h).1, (andThen_failure h).2.1⟩, ?_⟩
  rintro ⟨hfirst, hnext⟩
  unfold andThen
  rw [hfirst]
  exact hnext

/-! ## Fragment sets -/

namespace Fragments

variable {set other third : Fragments} {symbol path : String} {code : Fragment}
  {entries : List (String × Fragment)}

/-- No symbol of both sets has different code. -/
def Agrees (set other : Fragments) : Prop :=
  ∀ symbol, ∀ code ∈ set.get? symbol, ∀ code' ∈ other.get? symbol, code.text = code'.text

/-- The first set with what the second one has under other symbols behind it. -/
def union (set other : Fragments) : Fragments :=
  ⟨set.entries ++ other.entries.filter (·.1 ∉ set.symbols)⟩

theorem Agrees.symm (h : set.Agrees other) : other.Agrees set :=
  fun symbol code hcode code' hcode' ↦ (h symbol code' hcode' code hcode).symm

theorem agrees_self (set : Fragments) : set.Agrees set := by
  intro symbol code hcode code' hcode'
  rw [Option.mem_unique hcode hcode']

theorem failure_insert_iff : (set.insert symbol code path).failure = none ↔
    ∀ existing ∈ set.get? symbol, existing.text = code.text := by
  constructor
  · intro h existing hexisting
    exact text_eq_of_insert h hexisting
  · intro h
    unfold insert
    split
    case h_1 existing hexisting =>
      rw [if_pos (h existing hexisting)]
      rfl
    case h_2 => rfl

/-- An entry comes in exactly if it agrees with the set, and so do all others then. -/
theorem failure_insertAll_iff (hentries : (entries.map Prod.fst).Nodup) :
    (set.insertAll path entries).failure = none ↔ set.Agrees ⟨entries⟩ := by
  induction entries generalizing set with
  | nil =>
    constructor
    · intro _ symbol code _ code' hcode'
      cases hcode'
    · intro _
      rfl
  | cons entry rest ih =>
    obtain ⟨key, first⟩ := entry
    obtain ⟨hnew, hrest⟩ := List.nodup_cons.1 hentries
    have hnone : Table.get? key rest = none := Table.get?_eq_none_iff.2 hnew
    have hhead : ∀ symbol, get? ⟨(key, first) :: rest⟩ symbol =
        if key = symbol then some first else Table.get? symbol rest := fun _ ↦ rfl
    rw [insertAll, Attempt.failure_andThen_iff, failure_insert_iff, ih hrest]
    constructor
    · rintro ⟨hfirst, hothers⟩ symbol code hcode code' hcode'
      rw [hhead] at hcode'
      split at hcode'
      · subst symbol
        cases hcode'
        exact hfirst code hcode
      · refine hothers symbol code ?_ code' hcode'
        rw [get?_insert, Option.mem_def.1 hcode]
        rfl
    · intro h
      refine ⟨fun existing hexisting ↦ h key existing hexisting first (by simp [hhead]), ?_⟩
      intro symbol code hcode code' hcode'
      have hne : key ≠ symbol := by
        rintro rfl
        cases hnone.symm.trans hcode'
      rw [get?_insert, if_neg hne, Option.or_none] at hcode
      exact h symbol code hcode code' (by rwa [hhead, if_neg hne])

theorem failure_merge_iff (hother : other.symbols.Nodup) :
    (set.merge other path).failure = none ↔ set.Agrees other :=
  failure_insertAll_iff hother

theorem value_insertAll (hentries : (entries.map Prod.fst).Nodup)
    (h : (set.insertAll path entries).failure = none) :
    (set.insertAll path entries).value = set.union ⟨entries⟩ := by
  induction entries generalizing set with
  | nil => exact congrArg Fragments.mk (List.append_nil _).symm
  | cons entry rest ih =>
    obtain ⟨key, first⟩ := entry
    obtain ⟨hnew, hrest⟩ := List.nodup_cons.1 hentries
    rw [insertAll] at h ⊢
    obtain ⟨hfirst, hothers, heq⟩ := Attempt.andThen_failure h
    rw [heq, ih hrest hothers]
    obtain ⟨existing, hexisting, -, hvalue⟩ | ⟨hnone, hvalue⟩ := insert_cases hfirst
    · have hmem : key ∈ set.symbols := by
        by_contra hnot
        cases (get?_eq_none_iff.2 hnot).symm.trans hexisting
      rw [hvalue, union, union, List.filter_cons_of_neg (by simp [hmem])]
    · have hmem : key ∉ set.symbols := get?_eq_none_iff.1 hnone
      have hsame : rest.filter (·.1 ∉ symbols ⟨set.entries ++ [(key, first)]⟩) =
          rest.filter (·.1 ∉ set.symbols) := by
        refine List.filter_congr fun later hlater ↦ ?_
        have hold : later.1 ∈ rest.map Prod.fst := List.mem_map_of_mem hlater
        have hne : later.1 ≠ key := fun heq ↦ hnew (heq ▸ hold)
        refine decide_eq_decide.2 (not_congr ?_)
        simp only [symbols, Table.keys, List.map_append, List.mem_append, List.map_cons,
          List.map_nil, List.mem_singleton, hne, or_false]
      rw [hvalue, union, union, hsame, List.filter_cons_of_pos (by simp [hmem]),
        List.append_assoc, List.singleton_append]

theorem value_merge (hother : other.symbols.Nodup)
    (h : (set.merge other path).failure = none) :
    (set.merge other path).value = set.union other :=
  value_insertAll hother h

theorem mem_symbols_union : symbol ∈ (set.union other).symbols ↔
    symbol ∈ set.symbols ∨ symbol ∈ other.symbols := by
  simp only [symbols, Table.keys, union, List.map_append, List.mem_append, List.mem_map,
    List.mem_filter, decide_eq_true_eq]
  constructor
  · rintro (h | ⟨entry, ⟨hmem, -⟩, rfl⟩)
    · exact .inl h
    · exact .inr ⟨entry, hmem, rfl⟩
  · rintro (h | ⟨entry, hmem, rfl⟩)
    · exact .inl h
    · by_cases hold : ∃ first ∈ set.entries, first.1 = entry.1
      · exact .inl hold
      · exact .inr ⟨entry, ⟨hmem, hold⟩, rfl⟩

theorem union_assoc (set other third : Fragments) :
    (set.union other).union third = set.union (other.union third) := by
  have hboth : third.entries.filter (·.1 ∉ (set.union other).symbols) =
      (third.entries.filter (·.1 ∉ other.symbols)).filter (·.1 ∉ set.symbols) := by
    rw [List.filter_filter]
    exact List.filter_congr fun entry _ ↦ by simp [mem_symbols_union]
  rw [union, hboth]
  simp only [union, List.filter_append, List.append_assoc]

theorem union_self (set : Fragments) : set.union set = set := by
  have hnone : set.entries.filter (·.1 ∉ set.symbols) = [] :=
    List.filter_eq_nil_iff.2 fun entry hentry ↦ by
      have hmem : entry.1 ∈ set.symbols := List.mem_map_of_mem hentry
      simp [hmem]
  rw [union, hnone, List.append_nil]

theorem get?_union (h : set.Agrees other) (hother : other.symbols.Nodup) (symbol : String) :
    (set.union other).get? symbol = (set.get? symbol).or (other.get? symbol) := by
  -- the path of a merge stands only in its failures, so that any path will do
  have hmerge : (set.merge other "").failure = none := (failure_merge_iff hother).2 h
  rw [← value_merge hother hmerge, get?_merge hmerge]

theorem nodup_union (h : set.Agrees other) (hset : set.symbols.Nodup)
    (hother : other.symbols.Nodup) : (set.union other).symbols.Nodup := by
  have hmerge : (set.merge other "").failure = none := (failure_merge_iff hother).2 h
  rw [← value_merge hother hmerge]
  exact nodup_merge hset hmerge

/-- A set agrees with two that were merged exactly if it agrees with both. -/
theorem union_agrees_iff (h : set.Agrees other) (hother : other.symbols.Nodup) :
    (set.union other).Agrees third ↔ set.Agrees third ∧ other.Agrees third := by
  constructor
  · intro hunion
    have hset : set.Agrees third := fun symbol code hcode ↦ hunion symbol code <| by
      rw [get?_union h hother, Option.mem_def.1 hcode]
      rfl
    refine ⟨hset, fun symbol code hcode code' hcode' ↦ ?_⟩
    cases hfound : set.get? symbol with
    | none =>
      refine hunion symbol code ?_ code' hcode'
      rw [get?_union h hother, hfound]
      exact hcode
    | some found =>
      rw [← h symbol found hfound code hcode]
      exact hset symbol found hfound code' hcode'
  · rintro ⟨hset, hothers⟩ symbol code hcode
    rw [get?_union h hother] at hcode
    obtain hcode | ⟨-, hcode⟩ := Option.or_eq_some_iff.1 hcode
    · exact hset symbol code hcode
    · exact hothers symbol code hcode

end Fragments

/-! ## Outputs -/

namespace Output

variable {first second third output other result : Output} {path : String}

/-- No section has a symbol of both outputs with different code. -/
def Agrees (output other : Output) : Prop := ∀ place, (output.get place).Agrees (other.get place)

/-- The first output with what is new in the second one behind it, section by section. -/
def union (output other : Output) : Output where
  enums := output.enums.union other.enums
  declarations := output.declarations.union other.declarations
  definitions := output.definitions.union other.definitions
  conversions := output.conversions.union other.conversions
  containers := output.containers.union other.containers
  prototypes := output.prototypes.union other.prototypes
  implementations := output.implementations.union other.implementations
  diagnostics := addAllNew output.diagnostics other.diagnostics
  externals := addAllNew output.externals other.externals
  usesMetrics := output.usesMetrics || other.usesMetrics

/-- The same code under the same symbols, the same notices and titles, in whatever order. -/
structure SameContents (output other : Output) : Prop where
  code : ∀ place symbol,
    (output.find? place symbol).map (·.text) = (other.find? place symbol).map (·.text)
  diagnostics : ∀ diagnostic, diagnostic ∈ output.diagnostics ↔ diagnostic ∈ other.diagnostics
  externals : ∀ title, title ∈ output.externals ↔ title ∈ other.externals
  usesMetrics : output.usesMetrics = other.usesMetrics

theorem get_union (output other : Output) (place : Section) :
    (output.union other).get place = (output.get place).union (other.get place) := by
  cases place <;> rfl

theorem eq_of_get_eq (h : ∀ place, output.get place = other.get place)
    (hdiagnostics : output.diagnostics = other.diagnostics)
    (hexternals : output.externals = other.externals)
    (hmetrics : output.usesMetrics = other.usesMetrics) : output = other := by
  cases output
  cases other
  congr
  · exact h .enums
  · exact h .declarations
  · exact h .definitions
  · exact h .conversions
  · exact h .containers
  · exact h .prototypes
  · exact h .implementations

theorem usesMetrics_mergeSections (places : List Section) :
    (mergeSections other path places output).value.usesMetrics = output.usesMetrics := by
  induction places generalizing output with
  | nil => rfl
  | cons place rest ih =>
    unfold mergeSections Attempt.andThen
    have hset : ∀ fragments, (output.set place fragments).usesMetrics = output.usesMetrics := by
      cases place <;> intro <;> rfl
    split
    · exact ih.trans (hset _)
    · exact hset _

theorem failure_mergeSections_iff {places : List Section} (hplaces : places.Nodup) :
    (mergeSections other path places output).failure = none ↔
      ∀ place ∈ places, ((output.get place).merge (other.get place) path).failure = none := by
  induction places generalizing output with
  | nil => exact ⟨fun _ ↦ nofun, fun _ ↦ rfl⟩
  | cons place rest ih =>
    obtain ⟨hnot, hrest⟩ := List.nodup_cons.1 hplaces
    rw [mergeSections, Attempt.failure_andThen_iff, ih hrest, List.forall_mem_cons]
    refine and_congr Iff.rfl (forall₂_congr fun later hlater ↦ ?_)
    have hne : later ≠ place := by
      rintro rfl
      exact hnot hlater
    change (((output.set place _).get later).merge _ path).failure = none ↔ _
    rw [get_set_of_ne output hne]

theorem failure_merge_iff (hother : other.Distinct) :
    (output.merge other path).failure = none ↔ output.Agrees other := by
  rw [merge, Attempt.failure_andThen_iff, failure_mergeSections_iff (by decide)]
  constructor
  · rintro ⟨h, -⟩ place
    exact (Fragments.failure_merge_iff (hother place)).1 (h place (mem_all place))
  · intro h
    exact ⟨fun place _ ↦ (Fragments.failure_merge_iff (hother place)).2 (h place), rfl⟩

theorem merge_eq_ok_iff (hother : other.Distinct) :
    (output.merge other path).toExcept = .ok result ↔
      output.Agrees other ∧ output.union other = result := by
  rw [Attempt.toExcept_eq_ok, failure_merge_iff hother]
  refine and_congr_right fun h ↦ ?_
  have hsuccess : (output.merge other path).failure = none := (failure_merge_iff hother).2 h
  have hok := Attempt.toExcept_eq_ok.2 ⟨hsuccess, rfl⟩
  obtain ⟨hdiagnostics, hexternals, -⟩ := merge_eq_ok hok
  have hmetrics : (output.merge other path).value.usesMetrics =
      (output.usesMetrics || other.usesMetrics) := by
    rw [merge] at hsuccess ⊢
    obtain ⟨-, -, heq⟩ := Attempt.andThen_failure hsuccess
    rw [heq]
    exact congrArg (· || other.usesMetrics) (usesMetrics_mergeSections Section.all)
  have hunion : (output.merge other path).value = output.union other := by
    refine eq_of_get_eq (fun place ↦ ?_) hdiagnostics hexternals hmetrics
    obtain ⟨hplace, hget⟩ := merge_get hok place
    rw [hget, Fragments.value_merge (hother place) hplace, get_union]
  rw [hunion]

theorem union_assoc (first second third : Output) :
    (first.union second).union third = first.union (second.union third) := by
  refine eq_of_get_eq (fun place ↦ ?_) (addAllNew_addAllNew _ _ _).symm
    (addAllNew_addAllNew _ _ _).symm (Bool.or_assoc _ _ _)
  simp only [get_union, Fragments.union_assoc]

theorem union_self (output : Output) : output.union output = output := by
  refine eq_of_get_eq (fun place ↦ ?_) (addAllNew_of_subset (List.Subset.refl _))
    (addAllNew_of_subset (List.Subset.refl _)) (Bool.or_self _)
  rw [get_union, Fragments.union_self]

theorem Distinct.union (hdistinct : output.Distinct) (hother : other.Distinct)
    (h : output.Agrees other) : (output.union other).Distinct := by
  intro place
  rw [get_union]
  exact Fragments.nodup_union (h place) (hdistinct place) (hother place)

theorem Agrees.symm (h : output.Agrees other) : other.Agrees output := fun place ↦ (h place).symm

theorem union_agrees_iff (h : first.Agrees second) (hsecond : second.Distinct) :
    (first.union second).Agrees third ↔ first.Agrees third ∧ second.Agrees third := by
  unfold Agrees
  rw [← forall_and]
  refine forall_congr' fun place ↦ ?_
  rw [get_union]
  exact Fragments.union_agrees_iff (h place) (hsecond place)

theorem agrees_union_iff (h : second.Agrees third) (hthird : third.Distinct) :
    first.Agrees (second.union third) ↔ first.Agrees second ∧ first.Agrees third := by
  have hsymm : ∀ {output other : Output}, output.Agrees other ↔ other.Agrees output :=
    ⟨Agrees.symm, Agrees.symm⟩
  rw [hsymm, union_agrees_iff h hthird, hsymm, @hsymm third]

/-- Three outputs can be merged in either grouping exactly if any two of them agree. -/
theorem merge_grouped_iff (hsecond : second.Distinct) (hthird : third.Distinct)
    {path' : String} :
    ((first.merge second path).toExcept.bind fun merged ↦ (merged.merge third path').toExcept) =
        .ok result ↔
      (first.Agrees second ∧ second.Agrees third ∧ first.Agrees third) ∧
        (first.union second).union third = result := by
  rw [show ∀ x : Except Failure Output, ∀ f, x.bind f = x >>= f from fun _ _ ↦ rfl,
    Failure.bind_eq_ok]
  constructor
  · rintro ⟨merged, hfirst, hrest⟩
    obtain ⟨hagrees, rfl⟩ := (merge_eq_ok_iff hsecond).1 hfirst
    obtain ⟨hothers, rfl⟩ := (merge_eq_ok_iff hthird).1 hrest
    obtain ⟨hfirst, hsecond⟩ := (union_agrees_iff hagrees hsecond).1 hothers
    exact ⟨⟨hagrees, hsecond, hfirst⟩, rfl⟩
  · rintro ⟨⟨hagrees, hlater, houter⟩, rfl⟩
    exact ⟨_, (merge_eq_ok_iff hsecond).2 ⟨hagrees, rfl⟩,
      (merge_eq_ok_iff hthird).2 ⟨(union_agrees_iff hagrees hsecond).2 ⟨houter, hlater⟩, rfl⟩⟩

theorem merge_grouped_last_iff (hsecond : second.Distinct) (hthird : third.Distinct)
    {path' : String} :
    ((second.merge third path).toExcept.bind fun merged ↦ (first.merge merged path').toExcept) =
        .ok result ↔
      (first.Agrees second ∧ second.Agrees third ∧ first.Agrees third) ∧
        first.union (second.union third) = result := by
  rw [show ∀ x : Except Failure Output, ∀ f, x.bind f = x >>= f from fun _ _ ↦ rfl,
    Failure.bind_eq_ok]
  constructor
  · rintro ⟨merged, hlast, hrest⟩
    obtain ⟨hlater, rfl⟩ := (merge_eq_ok_iff hthird).1 hlast
    obtain ⟨hothers, rfl⟩ := (merge_eq_ok_iff (hsecond.union hthird hlater)).1 hrest
    obtain ⟨hagrees, houter⟩ := (agrees_union_iff hlater hthird).1 hothers
    exact ⟨⟨hagrees, hlater, houter⟩, rfl⟩
  · rintro ⟨⟨hagrees, hlater, houter⟩, rfl⟩
    exact ⟨_, (merge_eq_ok_iff hthird).2 ⟨hlater, rfl⟩,
      (merge_eq_ok_iff (hsecond.union hthird hlater)).2
        ⟨(agrees_union_iff hlater hthird).2 ⟨hagrees, houter⟩, rfl⟩⟩

theorem sameContents_union (h : output.Agrees other) (hdistinct : output.Distinct)
    (hother : other.Distinct) : (output.union other).SameContents (other.union output) where
  code place symbol := by
    unfold find?
    rw [get_union, get_union, Fragments.get?_union (h place) (hother place),
      Fragments.get?_union (h.symm place) (hdistinct place)]
    cases hfound : (output.get place).get? symbol with
    | none => simp
    | some code =>
      cases hfound' : (other.get place).get? symbol with
      | none => simp
      | some code' => simp [h place symbol code hfound code' hfound']
  diagnostics diagnostic := by simp [union, or_comm]
  externals title := by simp [union, or_comm]
  usesMetrics := Bool.or_comm _ _

/-- Outputs with distinct symbols in each section can be merged exactly if they agree. Three of them
come to the same output in either grouping, or to none in both, an output is not changed by itself,
and two outputs come to the same contents in either order. The paths are for failures only. -/
theorem merge_laws (hfirst : first.Distinct) (hsecond : second.Distinct) (hthird : third.Distinct) :
    (∀ path, (first.merge second path).failure = none ↔ first.Agrees second) ∧
    (∀ path path' last last' result,
      ((first.merge second path).toExcept.bind fun merged ↦ (merged.merge third path').toExcept) =
          .ok result ↔
        ((second.merge third last).toExcept.bind fun merged ↦
          (first.merge merged last').toExcept) = .ok result) ∧
    (∀ path, (first.merge first path).toExcept = .ok first) ∧
    ∀ path path',
      ((first.merge second path).failure = none ↔ (second.merge first path').failure = none) ∧
      ∀ merged merged', (first.merge second path).toExcept = .ok merged →
        (second.merge first path').toExcept = .ok merged' → merged.SameContents merged' := by
  refine ⟨fun path ↦ failure_merge_iff hsecond, fun path path' last last' result ↦ ?_,
    fun path ↦ ?_, fun path path' ↦ ⟨?_, fun merged merged' h h' ↦ ?_⟩⟩
  · rw [merge_grouped_iff hsecond hthird, merge_grouped_last_iff hsecond hthird, union_assoc]
  · exact (merge_eq_ok_iff hfirst).2 ⟨fun place ↦ Fragments.agrees_self _, union_self first⟩
  · rw [failure_merge_iff hsecond, failure_merge_iff hfirst]
    exact ⟨Agrees.symm, Agrees.symm⟩
  · obtain ⟨hagrees, rfl⟩ := (merge_eq_ok_iff hsecond).1 h
    obtain ⟨-, rfl⟩ := (merge_eq_ok_iff hfirst).1 h'
    exact sameContents_union hagrees hfirst hsecond

end Output

/-! ## An overlap of three outputs -/

namespace Overlap

def level : Fragment := .verbatim "typedef enum { LEVEL_LOW } Level;"

def mode : Fragment := .verbatim "typedef enum { MODE_DAY } Mode;"

def state : Fragment := .verbatim "typedef enum { STATE_ON } State;"

def lamp : Output := { enums := ⟨[("Level", level)]⟩, externals := ["Color"] }

def blind : Output :=
  { enums := ⟨[("Mode", mode), ("Level", level)]⟩, externals := ["Motor"], usesMetrics := true }

def fan : Output :=
  { enums := ⟨[("State", state), ("Mode", mode)]⟩, externals := ["Motor", "Color", "Air"] }

theorem lamp_distinct : lamp.Distinct := by intro place; cases place <;> decide

theorem blind_distinct : blind.Distinct := by intro place; cases place <;> decide

theorem fan_distinct : fan.Distinct := by intro place; cases place <;> decide

theorem run_grouped : ((lamp.merge blind "Home#").toExcept.bind fun merged ↦
    (merged.merge fan "Home#").toExcept).toOption.any (fun merged ↦
      merged.enums.symbols == ["Level", "Mode", "State"] &&
      merged.externals == ["Color", "Motor", "Air"]) = true := by
  decide +kernel

theorem run_blind_first : (blind.merge lamp "Home#").toExcept.toOption.any
    (·.enums.symbols == ["Mode", "Level"]) = true := by
  decide +kernel

/-- The symbols of three outputs come out in one order for both groupings, and those of two outputs
in another order if the outputs change places. -/
theorem merged_in_any_grouping :
    (∃ merged, merged.enums.symbols = ["Level", "Mode", "State"] ∧
      merged.externals = ["Color", "Motor", "Air"] ∧
      ((lamp.merge blind "Home#").toExcept.bind fun merged ↦
        (merged.merge fan "Home#").toExcept) = .ok merged ∧
      ((blind.merge fan "Home#").toExcept.bind fun merged ↦
        (lamp.merge merged "Home#").toExcept) = .ok merged) ∧
    ∃ swapped, (blind.merge lamp "Home#").toExcept = .ok swapped ∧
      swapped.enums.symbols = ["Mode", "Level"] ∧
      ∀ merged, (lamp.merge blind "Home#").toExcept = .ok merged →
        merged.SameContents swapped := by
  obtain ⟨-, hgrouping, -, hswap⟩ :=
    Output.merge_laws lamp_distinct blind_distinct fan_distinct
  obtain ⟨merged, hmerged, hcontents⟩ := Failure.any_toOption.1 run_grouped
  obtain ⟨swapped, hswapped, hsymbols⟩ := Failure.any_toOption.1 run_blind_first
  rw [Bool.and_eq_true, beq_iff_eq, beq_iff_eq] at hcontents
  exact ⟨⟨merged, hcontents.1, hcontents.2, hmerged, (hgrouping _ _ _ _ _).1 hmerged⟩,
    swapped, hswapped, beq_iff_eq.1 hsymbols,
    fun merged hmerged ↦ (hswap _ _).2 merged swapped hmerged hswapped⟩

end Overlap

end SchemaBindings
