import SchemaBindings.Proofs.Budget
import SchemaBindings.Proofs.Composition

/-!
# Mappings that have a result

Whether a mapping has a result at all, operation by operation. Most operations always have one, so
that a sequence has a result if the mappings of other schemas in it have. Of a list that is gone
through in order, an element is asked for its result only after all before it have succeeded.
-/

namespace SchemaBindings

namespace Mapping

variable {α β : Type}

def Halts (mapping : Mapping α) (session : Session) : Prop := (mapping session).isSome

/-- The mapping has a result in every session. -/
def Total (mapping : Mapping α) : Prop := ∀ session, mapping.Halts session

theorem halts_iff {mapping : Mapping α} {session : Session} :
    mapping.Halts session ↔ ∃ result session', mapping session = some (result, session') := by
  unfold Halts
  rw [Option.isSome_iff_exists]
  exact Prod.exists

theorem Halts.refines {first second : Mapping α} {session : Session} (h : first.Halts session)
    (hrefines : first.Refines second) : second.Halts session := by
  obtain ⟨result, session', hrun⟩ := halts_iff.1 h
  exact halts_iff.2 ⟨result, session', hrefines _ _ hrun⟩

theorem total_ofExcept (result : Except Failure α) : Total (ofExcept result) :=
  fun session ↦ halts_iff.2 ⟨_, _, run_ofExcept result session⟩

theorem total_pure (value : α) : Total (pure value) := total_ofExcept (.ok value)

theorem total_fail (failure : Failure) : Total (fail failure : Mapping α) :=
  total_ofExcept (.error failure)

theorem total_warn : Total warn := fun session ↦ halts_iff.2 ⟨_, _, run_warn session⟩

theorem total_claim (library : Library) (document : Document) (path : String) (kind : SymbolKind)
    (stem : String) : Total (claim library document path kind stem) :=
  fun session ↦ halts_iff.2 ⟨_, _, run_claim library document path kind stem session⟩

theorem halts_bind {mapping : Mapping α} {next : α → Mapping β} {session : Session} :
    Halts (mapping >>= next) session ↔ mapping.Halts session ∧
      ∀ value between, mapping session = some (.ok value, between) →
        (next value).Halts between := by
  unfold Halts
  rw [run_bind]
  cases hrun : mapping session with
  | none => simp
  | some run =>
    obtain ⟨result, between⟩ := run
    cases result <;> simp

theorem halts_bind_total {mapping : Mapping α} {next : α → Mapping β} {session : Session}
    (hnext : ∀ value, Total (next value)) :
    Halts (mapping >>= next) session ↔ mapping.Halts session :=
  halts_bind.trans (and_iff_left fun value between _ ↦ hnext value between)

theorem Total.bind {mapping : Mapping α} {next : α → Mapping β} (h : Total mapping)
    (hnext : ∀ value, Total (next value)) : Total (mapping >>= next) :=
  fun session ↦ (halts_bind_total hnext).2 (h session)

theorem total_ite_warn (failure : Failure) (value : α) :
    Total (if failure.isRecoverable then warn >>= fun _ ↦ pure value else fail failure) := by
  split
  · exact total_warn.bind fun _ ↦ total_pure value
  · exact total_fail failure

theorem halts_attempt {mapping : Mapping α} {session : Session} :
    Halts (attempt mapping) session ↔ mapping.Halts session := by
  unfold Halts
  rw [run_attempt, Option.isSome_map]

theorem halts_ofExcept_bind {result : Except Failure α} {next : α → Mapping β}
    {session : Session} :
    Halts (ofExcept result >>= next) session ↔
      ∀ value, result = .ok value → (next value).Halts session := by
  rw [halts_bind, run_ofExcept]
  constructor
  · rintro ⟨-, h⟩ value rfl
    exact h value session rfl
  · intro h
    refine ⟨total_ofExcept result session, ?_⟩
    rintro value between heq
    cases heq
    exact h value rfl

theorem halts_following {key path : String} {body : Mapping α} {session : Session} :
    Halts (following key path body) session ↔
      (key ∉ session.chain → body.Halts (session.push key)) := by
  unfold Halts
  rw [run_following]
  by_cases hkey : key ∈ session.chain
  · rw [if_pos hkey]
    exact ⟨fun _ h ↦ absurd hkey h, fun _ ↦ rfl⟩
  · rw [if_neg hkey, Option.isSome_map]
    exact ⟨fun h _ ↦ h, fun h ↦ h hkey⟩

/-- After an operation that always has a result, the rest has to have one. -/
theorem exists_halts_bind {mapping : Mapping α} {next : Nat → α → Mapping β} {session : Session}
    (hfirst : Total mapping)
    (h : ∀ value between, mapping session = some (.ok value, between) →
      ∃ budget, (next budget value).Halts between) :
    ∃ budget, Halts (mapping >>= next budget) session := by
  obtain ⟨result, between, hrun⟩ := halts_iff.1 (hfirst session)
  cases result with
  | error failure => exact ⟨0, halts_iff.2 ⟨_, _, run_bind_error hrun _⟩⟩
  | ok value =>
    obtain ⟨budget, hnext⟩ := h value between hrun
    refine ⟨budget, ?_⟩
    unfold Halts
    rw [run_bind_ok hrun]
    exact hnext

theorem exists_halts_ofExcept_bind {result : Except Failure α} {next : Nat → α → Mapping β}
    {session : Session}
    (h : ∀ value, result = .ok value → ∃ budget, (next budget value).Halts session) :
    ∃ budget, Halts (ofExcept result >>= next budget) session := by
  refine exists_halts_bind (total_ofExcept result) fun value between hrun ↦ ?_
  rw [run_ofExcept] at hrun
  cases hrun
  exact h value rfl

theorem exists_halts_following {key path : String} {body : Nat → Mapping α} {session : Session}
    (h : key ∉ session.chain → ∃ budget, (body budget).Halts (session.push key)) :
    ∃ budget, (following key path (body budget)).Halts session := by
  by_cases hkey : key ∈ session.chain
  · exact ⟨0, halts_following.2 fun hnew ↦ absurd hkey hnew⟩
  · obtain ⟨budget, hbody⟩ := h hkey
    exact ⟨budget, halts_following.2 fun _ ↦ hbody⟩

/-- Two operations in a row that both need a budget. -/
theorem exists_halts_bind_of_refines {first : Nat → Mapping α} {next : Nat → α → Mapping β}
    {session : Session}
    (hmono : ∀ {budget budget'}, budget ≤ budget' → (first budget).Refines (first budget'))
    (hmono' : ∀ {budget budget'}, budget ≤ budget' → ∀ value,
      (next budget value).Refines (next budget' value))
    (hfirst : ∃ budget, (first budget).Halts session)
    (h : ∀ budget value between, first budget session = some (.ok value, between) →
      ∃ budget', (next budget' value).Halts between) :
    ∃ budget, Halts (first budget >>= next budget) session := by
  obtain ⟨budget, hfirst⟩ := hfirst
  obtain ⟨result, between, hrun⟩ := halts_iff.1 hfirst
  cases result with
  | error failure => exact ⟨budget, halts_iff.2 ⟨_, _, run_bind_error hrun _⟩⟩
  | ok value =>
    obtain ⟨budget', hnext⟩ := h budget value between hrun
    refine ⟨max budget budget', ?_⟩
    unfold Halts
    rw [run_bind_ok (hmono (Nat.le_max_left _ _) _ _ hrun)]
    exact hnext.refines (hmono' (Nat.le_max_right _ _) value)

section Fold

variable {step : Nat → β → α → Mapping β}

/-- If elements halt as soon as all before them have succeeded, the whole list does. -/
theorem exists_halts_foldlM
    (hmono : ∀ {budget budget'}, budget ≤ budget' → ∀ soFar x,
      (step budget soFar x).Refines (step budget' soFar x))
    {xs : List α} {start : β} {session : Session}
    (h : ∀ before x after, xs = before ++ x :: after → ∀ budget soFar between,
      before.foldlM (step budget) start session = some (.ok soFar, between) →
        ∃ budget, (step budget soFar x).Halts between) :
    ∃ budget, (xs.foldlM (step budget) start : Mapping β).Halts session := by
  induction xs generalizing start session with
  | nil => exact ⟨0, total_pure start session⟩
  | cons x rest ih =>
    simp only [List.foldlM_cons]
    refine exists_halts_bind_of_refines (fun hle ↦ hmono hle start x)
      (fun hle soFar ↦ (refinement 0).foldlM (hmono hle) rest soFar)
      (h [] x rest rfl 0 start session rfl) fun budget soFar between hrun ↦ ?_
    refine ih fun before y after heq budget' soFar' between' hbefore ↦ ?_
    refine h (x :: before) y after (by rw [heq]; rfl) (max budget budget') soFar' between' ?_
    rw [List.foldlM_cons, run_bind_ok (hmono (Nat.le_max_left _ _) _ _ _ _ hrun)]
    exact (refinement 0).foldlM (hmono (Nat.le_max_right _ _)) before soFar _ _ hbefore

/-- An element halts with the budget that the whole list halts with. -/
theorem Halts.of_foldlM
    (hmono : ∀ {budget budget'}, budget ≤ budget' → ∀ soFar x,
      (step budget soFar x).Refines (step budget' soFar x))
    {before after : List α} {x : α} {start soFar : β} {session between : Session}
    {budget budget' : Nat}
    (h : ((before ++ x :: after).foldlM (step budget) start : Mapping β).Halts session)
    (hbefore : before.foldlM (step budget') start session = some (.ok soFar, between)) :
    (step budget soFar x).Halts between := by
  rw [List.foldlM_append, halts_bind] at h
  obtain ⟨hfirst, hrest⟩ := h
  obtain ⟨result, found, hrun⟩ := halts_iff.1 hfirst
  cases run_unique (fun hle ↦ (refinement 0).foldlM (hmono hle) before start) hrun hbefore
  have hlast := hrest soFar between hrun
  rw [List.foldlM_cons, halts_bind] at hlast
  exact hlast.1

end Fold

end Mapping

end SchemaBindings
