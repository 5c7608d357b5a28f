import SchemaBindings.Proofs.Faults
import SchemaBindings.Proofs.Growth

/-!
# Mapping a second time

A mapping reads two things of its session: the stems of the paths that it claims, and the chain of
references. If it is run again when at least the stems of the first run are known, on the same
chain, it ends in the same way. A shorter chain makes no difference either, unless the first run
was stopped by a cycle. The second run may be asked under another scope, for the scope is read
for new stems alone.
-/

namespace SchemaBindings

namespace Mapping

variable {α β : Type} {library : Library}

/-- The result says that a reference leads into a cycle. -/
def Cyclic (result : Except Failure α) : Prop :=
  ∃ failure, result = .error failure ∧ failure.isCyclic

theorem not_cyclic_ok (value : α) : ¬Cyclic (.ok value) := by
  rintro ⟨failure, heq, -⟩
  cases heq

/-- The chain of a second run, for a first run that ended with the result. -/
def Rejoins (session later : Session) (result : Except Failure α) : Prop :=
  later.chain = session.chain ∨ (later.chain ⊆ session.chain ∧ ¬Cyclic result)

section Rejoins

variable {session later : Session} {result : Except Failure α}

theorem Rejoins.of_chain_nil (h : later.chain = []) (hresult : ¬Cyclic result) :
    Rejoins session later result := by
  refine .inr ⟨?_, hresult⟩
  rw [h]
  exact List.nil_subset _

theorem Rejoins.chain_subset (h : Rejoins session later result) : later.chain ⊆ session.chain := by
  obtain heq | ⟨hsubset, -⟩ := h
  · rw [heq]
    exact List.Subset.refl _
  · exact hsubset

theorem Rejoins.ok {value : β} (h : Rejoins session later result) :
    Rejoins session later (.ok value) :=
  .inr ⟨h.chain_subset, not_cyclic_ok value⟩

theorem Rejoins.of_chain_eq {between after : Session} (h : Rejoins session later result)
    (hbetween : between.chain = session.chain) (hafter : after.chain = later.chain) :
    Rejoins between after result := by
  unfold Rejoins
  rw [hbetween, hafter]
  exact h

theorem Rejoins.push (h : Rejoins session later result) (key : String) :
    Rejoins (session.push key) (later.push key) result := by
  obtain heq | ⟨hsubset, hresult⟩ := h
  · exact .inl (congrArg (key :: ·) heq)
  · exact .inr ⟨List.cons_subset_cons key hsubset, hresult⟩

end Rejoins

/-- The second mapping ends as the first one has ended, once the stems of the first one are
known. -/
structure Replays (library : Library) (first second : Mapping α) : Prop where
  first_claims : first.Claims library fun _ _ ↦ True
  second_claims : second.Claims library fun _ _ ↦ True
  replay : ∀ {session session' later : Session} {result : Except Failure α},
    first session = some (result, session') → session'.registry.Extends later.registry →
      Rejoins session later result → ∃ later', second later = some (result, later')

theorem replays_ofExcept (result : Except Failure α) :
    Replays library (ofExcept result) (ofExcept result) where
  first_claims := claims_ofExcept result
  second_claims := claims_ofExcept result
  replay {session session' later found} hrun _ _ := by
    rw [run_ofExcept] at hrun
    cases hrun
    exact ⟨later, run_ofExcept result later⟩

theorem replays_pure (value : α) : Replays library (pure value) (pure value) :=
  replays_ofExcept (.ok value)

theorem replays_fail (failure : Failure) :
    Replays library (fail failure : Mapping α) (fail failure) :=
  replays_ofExcept (.error failure)

theorem replays_exhausted : Replays library (exhausted : Mapping α) exhausted :=
  ⟨claims_exhausted, claims_exhausted, (nomatch ·)⟩

theorem replays_warn : Replays library warn warn where
  first_claims := claims_warn
  second_claims := claims_warn
  replay {session session' later result} hrun _ _ := by
    cases hrun
    exact ⟨_, run_warn later⟩

/-- A path that has a stem gets it again, whatever is preferred. -/
theorem replays_claim (document : Document) (path : String) (kind : SymbolKind)
    (stem stem' : String) :
    Replays library (claim library document path kind stem)
      (claim library document path kind stem') where
  first_claims := claims_claim trivial kind stem
  second_claims := claims_claim trivial kind stem'
  replay {session session' later result} hrun hextends _ := by
    rw [run_claim] at hrun
    cases hrun
    have hstem := Registry.stem?_claim session.registry library document path kind stem
    have hlater := run_claim library document path kind stem' later
    rw [Registry.claim_fst_of_stem? (hextends _ _ hstem)] at hlater
    exact ⟨_, hlater⟩

/-- Each result of the first mapping is looked at before going on; cycles end everything. -/
theorem Replays.attempt_bind {first second : Mapping α} {next next' : Except Failure α → Mapping β}
    (h : Replays library first second)
    (hnext : ∀ result, Replays library (next result) (next' result))
    (hcyclic : ∀ failure, failure.isCyclic → next (.error failure) = fail failure) :
    Replays library (attempt first >>= next) (attempt second >>= next') where
  first_claims := h.first_claims.attempt.bind fun result ↦ (hnext result).first_claims
  second_claims := h.second_claims.attempt.bind fun result ↦ (hnext result).second_claims
  replay {session session' later result} hrun hextends hrejoins := by
    rw [run_bind, run_attempt] at hrun
    cases hinner : first session with
    | none =>
      rw [hinner] at hrun
      cases hrun
    | some run =>
      obtain ⟨mid, between⟩ := run
      rw [hinner] at hrun
      replace hrun : next mid between = some (result, session') := hrun
      obtain ⟨hbetween, -⟩ := h.first_claims _ _ _ hinner
      obtain ⟨-, hgrows⟩ := (hnext mid).first_claims _ _ _ hrun
      have hmid : Rejoins session later mid := by
        obtain heq | ⟨hsubset, hresult⟩ := hrejoins
        · exact .inl heq
        · refine .inr ⟨hsubset, ?_⟩
          rintro ⟨failure, rfl, hfailure⟩
          rw [hcyclic failure hfailure] at hrun
          cases hrun
          exact hresult ⟨failure, rfl, hfailure⟩
      obtain ⟨later', hlater⟩ := h.replay hinner (hgrows.extends.trans hextends) hmid
      obtain ⟨hchain', hgrows'⟩ := h.second_claims _ _ _ hlater
      obtain ⟨last, hlast⟩ := (hnext mid).replay hrun (hextends.trans hgrows'.extends)
        (hrejoins.of_chain_eq hbetween hchain')
      refine ⟨last, ?_⟩
      rw [run_bind, run_attempt, hlater]
      exact hlast

theorem Replays.bind {first second : Mapping α} {next next' : α → Mapping β}
    (h : Replays library first second)
    (hnext : ∀ value, Replays library (next value) (next' value)) :
    Replays library (first >>= next) (second >>= next') where
  first_claims := h.first_claims.bind fun value ↦ (hnext value).first_claims
  second_claims := h.second_claims.bind fun value ↦ (hnext value).second_claims
  replay {session session' later result} hrun hextends hrejoins := by
    obtain ⟨value, between, hfirst, hsecond⟩ | ⟨failure, hfirst, rfl⟩ := bind_eq_some.1 hrun
    · obtain ⟨hbetween, -⟩ := h.first_claims _ _ _ hfirst
      obtain ⟨-, hgrows⟩ := (hnext value).first_claims _ _ _ hsecond
      obtain ⟨later', hlater⟩ := h.replay hfirst (hgrows.extends.trans hextends) hrejoins.ok
      obtain ⟨hchain', hgrows'⟩ := h.second_claims _ _ _ hlater
      obtain ⟨last, hlast⟩ := (hnext value).replay hsecond (hextends.trans hgrows'.extends)
        (hrejoins.of_chain_eq hbetween hchain')
      exact ⟨last, (run_bind_ok hlater next').trans hlast⟩
    · have hfailed : Rejoins session later (.error failure : Except Failure α) := by
        refine hrejoins.imp id fun ⟨hsubset, hresult⟩ ↦ ⟨hsubset, ?_⟩
        rintro ⟨_, ⟨⟩, hfailure⟩
        exact hresult ⟨failure, rfl, hfailure⟩
      obtain ⟨later', hlater⟩ := h.replay hfirst hextends hfailed
      exact ⟨later', run_bind_error hlater next'⟩

theorem Replays.following {first second : Mapping α} (h : Replays library first second)
    (key path : String) :
    Replays library (following key path first) (following key path second) where
  first_claims := h.first_claims.following key path
  second_claims := h.second_claims.following key path
  replay {session session' later result} hrun hextends hrejoins := by
    by_cases hkey : key ∈ session.chain
    · -- the first run was stopped by a cycle, so the chain is the same
      rw [run_following, if_pos hkey] at hrun
      cases hrun
      obtain heq | ⟨-, hresult⟩ := hrejoins
      · rw [run_following, if_pos (heq ▸ hkey), heq]
        exact ⟨later, rfl⟩
      · exact absurd ⟨_, rfl, rfl⟩ hresult
    · obtain ⟨after, hbody, rfl⟩ := following_eq_some hkey hrun
      have hextends' : after.registry.Extends (later.push key).registry := hextends
      obtain ⟨later', hlater⟩ := h.replay hbody hextends' (hrejoins.push key)
      rw [run_following, if_neg fun hmem ↦ hkey (hrejoins.chain_subset hmem), hlater]
      exact ⟨later'.pop, rfl⟩

/-- A schema is mapped for the same path a second time, under any scope. -/
def repetition (library : Library) : MapperRelation library where
  holds := Replays library
  more := 0
  exhausted _ hzero := by
    rw [hzero]
    exact replays_exhausted
  faults _ := replays_ofExcept _
  bind := .bind
  following := .following
  places _ _ _ _ := True
  child _ _ := trivial
  inside _ _ := trivial
  target _ _ _ _ _ := trivial
  ofExcept := replays_ofExcept
  warn := replays_warn
  claim _ _ _ := replays_claim _ _ _ _ _
  attempt_bind h hnext hfails := h.attempt_bind hnext fun failure hcyclic ↦
    hfails failure (Failure.isRecoverable_of_isCyclic hcyclic)

end Mapping

open Mapping

variable {cx : Context} {document : Document} {name scope scope' path : String}

namespace Native

/-- A schema comes to the same native type again. -/
theorem map_replays (cx : Context) (budget : Nat) (document : Document) (node : Node)
    (name scope scope' path : String) :
    Replays cx.library (map cx budget document node ⟨name, scope, path⟩)
      (map cx budget document node ⟨name, scope', path⟩) := by
  have hplace : (repetition cx.library).places document path scope scope' := trivial
  have h : Replays cx.library (map cx budget document node ⟨name, scope, path⟩)
      (map cx (0 + budget) document node ⟨name, scope', path⟩) :=
    map_related (repetition cx.library) budget hplace node
  rwa [Nat.zero_add] at h

theorem property_replays (budget : Nat) (parent : Parent) (isOptional : Bool) (member : String)
    (node : Node) (request : Request) :
    Replays cx.library (property cx (map cx budget) document parent isOptional member node request)
      (property cx (map cx budget) document parent isOptional member node request) :=
  property_related (repetition cx.library) (fun _ ↦ map_replays cx budget _ _ _ _ _ _) trivial
    parent isOptional member node

end Native

namespace Wire

/-- A schema comes to the same wire type again. -/
theorem map_replays (cx : Context) (budget : Nat) (document : Document) (node : Node)
    (name scope scope' path : String) :
    Replays cx.library (map cx budget document node ⟨name, scope, path⟩)
      (map cx budget document node ⟨name, scope', path⟩) := by
  have hplace : (repetition cx.library).places document path scope scope' := trivial
  have h : Replays cx.library (map cx budget document node ⟨name, scope, path⟩)
      (map cx (0 + budget) document node ⟨name, scope', path⟩) :=
    map_related (repetition cx.library) budget hplace node
  rwa [Nat.zero_add] at h

end Wire

end SchemaBindings
