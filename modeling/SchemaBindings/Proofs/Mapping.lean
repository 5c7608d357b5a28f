import SchemaBindings.Binding.Session

/-!
# Runs of mappings

How a mapping runs from a session, operation by operation. Sequencing goes on after a value and
stops at a failure; following a reference runs the body on a longer chain and gives the chain
back. The runs of an operation that others are built from are stated here once, so that later
proofs take a mapping apart without opening the monad.
-/

namespace SchemaBindings

namespace Session

/-- The session that the body of a followed reference runs in. -/
def push (session : Session) (key : String) : Session :=
  { session with chain := key :: session.chain }

def pop (session : Session) : Session := { session with chain := session.chain.tail }

@[simp]
theorem chain_push (session : Session) (key : String) :
    (session.push key).chain = key :: session.chain := rfl

@[simp]
theorem chain_pop (session : Session) : session.pop.chain = session.chain.tail := rfl

end Session

namespace Mapping

variable {α β : Type}

theorem run_ofExcept (result : Except Failure α) (session : Session) :
    ofExcept result session = some (result, session) := by
  cases result <;> rfl

theorem run_attempt (mapping : Mapping α) (session : Session) :
    attempt mapping session = (mapping session).map fun run ↦ (.ok run.1, run.2) := rfl

theorem run_warn (session : Session) :
    warn session = some (.ok (), { session with warnings := session.warnings + 1 }) := rfl

theorem run_claim (library : Library) (document : Document) (path : String) (kind : SymbolKind)
    (stem : String) (session : Session) :
    claim library document path kind stem session =
      some (.ok (session.registry.claim library document path kind stem).1,
        { session with
          registry := (session.registry.claim library document path kind stem).2 }) := rfl

theorem run_bind (mapping : Mapping α) (next : α → Mapping β) (session : Session) :
    (mapping >>= next) session =
      (mapping session).bind fun run ↦
        match run with
        | (.ok value, session) => next value session
        | (.error failure, session) => some (.error failure, session) := by
  change (mapping session).bind _ = _
  congr 1
  funext ⟨result, session⟩
  cases result <;> rfl

/-- A sequence has a result exactly if its first part fails or its second part has one. -/
theorem bind_eq_some {mapping : Mapping α} {next : α → Mapping β} {session session' : Session}
    {result : Except Failure β} :
    (mapping >>= next) session = some (result, session') ↔
      (∃ value between, mapping session = some (.ok value, between) ∧
        next value between = some (result, session')) ∨
      ∃ failure, mapping session = some (.error failure, session') ∧ result = .error failure := by
  rw [run_bind]
  constructor
  · intro h
    obtain ⟨⟨first, between⟩, hfirst, hnext⟩ := Option.bind_eq_some_iff.1 h
    cases first with
    | ok value => exact .inl ⟨value, between, hfirst, hnext⟩
    | error failure =>
      cases hnext
      exact .inr ⟨failure, hfirst, rfl⟩
  · rintro (⟨value, between, hfirst, hnext⟩ | ⟨failure, hfirst, rfl⟩)
    · rw [hfirst]
      exact hnext
    · rw [hfirst]
      rfl

/-- A sequence succeeds exactly if both of its parts do. -/
theorem bind_eq_ok {mapping : Mapping α} {next : α → Mapping β} {session session' : Session}
    {result : β} :
    (mapping >>= next) session = some (.ok result, session') ↔
      ∃ value between, mapping session = some (.ok value, between) ∧
        next value between = some (.ok result, session') := by
  rw [bind_eq_some]
  refine or_iff_left ?_
  rintro ⟨failure, -, heq⟩
  cases heq

/-- A sequence that goes on after a failure as well succeeds exactly if what comes next does. -/
theorem attempt_bind_eq_ok {mapping : Mapping α} {next : Except Failure α → Mapping β}
    {session session' : Session} {result : β} :
    (attempt mapping >>= next) session = some (.ok result, session') ↔
      ∃ found between, mapping session = some (found, between) ∧
        next found between = some (.ok result, session') := by
  rw [bind_eq_ok]
  constructor
  · rintro ⟨found, between, hattempt, hnext⟩
    obtain ⟨⟨_, _⟩, hrun, heq⟩ := Option.map_eq_some_iff.1 hattempt
    cases heq
    exact ⟨found, between, hrun, hnext⟩
  · rintro ⟨found, between, hrun, hnext⟩
    exact ⟨found, between, by rw [run_attempt, hrun]; rfl, hnext⟩

/-- A run whose value passes a check succeeds. -/
theorem exists_ok_of_any {run : Option (Except Failure α × Session)} {check : α → Bool}
    (h : run.any (fun ending ↦ ending.1.toOption.any check) = true) :
    ∃ value session, run = some (.ok value, session) ∧ check value = true := by
  obtain ⟨⟨result, session⟩, rfl, hsome⟩ := (Option.any_eq_true _ _).1 h
  obtain ⟨value, rfl, hcheck⟩ := Failure.any_toOption.1 hsome
  exact ⟨value, session, rfl, hcheck⟩

theorem ofExcept_eq_ok {result : Except Failure α} {value : α} {session session' : Session} :
    ofExcept result session = some (.ok value, session') ↔
      result = .ok value ∧ session' = session := by
  rw [run_ofExcept]
  constructor
  · intro h
    cases h
    exact ⟨rfl, rfl⟩
  · rintro ⟨rfl, rfl⟩
    rfl

theorem run_bind_ok {mapping : Mapping α} {session between : Session} {value : α}
    (h : mapping session = some (.ok value, between)) (next : α → Mapping β) :
    (mapping >>= next) session = next value between := by
  rw [run_bind, h]
  rfl

theorem run_bind_error {mapping : Mapping α} {session between : Session} {failure : Failure}
    (h : mapping session = some (.error failure, between)) (next : α → Mapping β) :
    (mapping >>= next) session = some (.error failure, between) := by
  rw [run_bind, h]
  rfl

theorem run_ofExcept_bind (result : Except Failure α) (next : α → Mapping β) (session : Session) :
    (ofExcept result >>= next) session =
      match result with
      | .ok value => next value session
      | .error failure => some (.error failure, session) := by
  cases result <;> rfl

theorem run_enter (key path : String) (session : Session) :
    enter key path session =
      if key ∈ session.chain then
        some (.error (.cyclicReference (key :: session.chain).reverse path), session)
      else some (.ok (), { session with chain := key :: session.chain }) := by
  change (if session.chain.contains key then
    (fail (.cyclicReference (key :: session.chain).reverse path) : Mapping Unit)
    else set { session with chain := key :: session.chain }) session = _
  by_cases h : key ∈ session.chain
  · rw [if_pos (List.contains_iff_mem.2 h), if_pos h]
    rfl
  · rw [if_neg fun hc ↦ h (List.contains_iff_mem.1 hc), if_neg h]
    rfl

theorem run_following (key path : String) (body : Mapping α) (session : Session) :
    following key path body session =
      if key ∈ session.chain then
        some (.error (.cyclicReference (key :: session.chain).reverse path), session)
      else (body (session.push key)).map fun run ↦ (run.1, run.2.pop) := by
  unfold following
  by_cases h : key ∈ session.chain
  · rw [if_pos h, run_bind, run_enter, if_pos h]
    rfl
  · have henter : enter key path session = some (.ok (), session.push key) := by
      rw [run_enter, if_neg h]
      rfl
    rw [if_neg h, run_bind_ok henter, run_bind, run_attempt]
    cases body (session.push key) with
    | none => rfl
    | some run =>
      obtain ⟨result, after⟩ := run
      cases result <;> rfl

theorem following_eq_some {key path : String} {body : Mapping α} {session session' : Session}
    {result : Except Failure α} (hkey : key ∉ session.chain)
    (h : following key path body session = some (result, session')) :
    ∃ after, body (session.push key) = some (result, after) ∧ session' = after.pop := by
  rw [run_following, if_neg hkey] at h
  obtain ⟨run, hrun, heq⟩ := Option.map_eq_some_iff.1 h
  cases heq
  exact ⟨run.2, hrun, rfl⟩

theorem following_eq_ok {key path : String} {body : Mapping α} {session session' : Session}
    {value : α} (h : following key path body session = some (.ok value, session')) :
    ∃ after, body (session.push key) = some (.ok value, after) ∧ session' = after.pop := by
  by_cases hkey : key ∈ session.chain
  · rw [run_following, if_pos hkey] at h
    cases h
  · exact following_eq_some hkey h

end Mapping

end SchemaBindings
