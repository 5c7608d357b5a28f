import SchemaBindings.Proofs.Budget
import SchemaBindings.Proofs.Composition
import SchemaBindings.Proofs.Growth
import SchemaBindings.Proofs.Outputs

/-!
# One mapping after another

Two mappings that go over the same schema share a registry. The one that runs later starts with
all the stems that the other one has claimed, and on the same chain of references. It follows the
other one if it then ends in the same way, apart from collisions of names. What is built in step
from two mappings that follow each other does so as well, whichever of the two runs first.
-/

namespace SchemaBindings

namespace Mapping

variable {α β α' β' γ : Type}

/-- The result is a collision of names. -/
def Collides (result : Except Failure α) : Prop :=
  ∃ failure, result = .error failure ∧ failure.isCollision

theorem not_collides_ok (value : α) : ¬Collides (.ok value) := by
  rintro ⟨failure, heq, -⟩
  cases heq

/-- The same failure or related values. -/
inductive Same (Q : α → β → Prop) : Except Failure α → Except Failure β → Prop
  | ok {a : α} {b : β} (h : Q a b) : Same Q (.ok a) (.ok b)
  | error (failure : Failure) : Same Q (.error failure) (.error failure)

theorem Same.symm {Q : α → β → Prop} {first : Except Failure α} {second : Except Failure β}
    (h : Same Q first second) : Same (fun b a ↦ Q a b) second first := by
  cases h with
  | ok h => exact .ok h
  | error failure => exact .error failure

/-- After the first mapping has ended without a collision, the second one ends too, and does so in
the same way unless names collide. -/
def Follows (first : Mapping α) (second : Mapping β) (Q : α → β → Prop) : Prop :=
  ∀ ⦃session session' later : Session⦄ ⦃result : Except Failure α⦄,
    first session = some (result, session') → ¬Collides result →
      later.chain = session.chain → session'.registry.Extends later.registry →
        ∃ result' later', second later = some (result', later') ∧
          (Collides result' ∨ Same Q result result')

variable {library : Library} {allowed : Document → String → Prop} {Q : α → β → Prop}
  {R : α' → β' → Prop}

theorem follows_exhausted (second : Mapping β) : Follows (exhausted : Mapping α) second Q :=
  fun _ _ _ _ h ↦ nomatch h

theorem follows_ofExcept {first : Except Failure α} {second : Except Failure β}
    (h : ¬Collides first → Collides second ∨ Same Q first second) :
    Follows (ofExcept first) (ofExcept second) Q := by
  intro session session' later result hrun hresult _ _
  rw [run_ofExcept] at hrun
  cases hrun
  exact ⟨second, later, run_ofExcept second later, h hresult⟩

theorem Follows.refines {first : Mapping α} {second second' : Mapping β}
    (h : Follows first second Q) (hrefines : second.Refines second') : Follows first second' Q := by
  intro session session' later result hrun hresult hchain hextends
  obtain ⟨result', later', hsecond, hsame⟩ := h hrun hresult hchain hextends
  exact ⟨result', later', hrefines _ _ hsecond, hsame⟩

theorem Follows.imp {first : Mapping α} {second : Mapping β} {Q' : α → β → Prop}
    (h : Follows first second Q) (himp : ∀ a b, Q a b → Q' a b) : Follows first second Q' := by
  intro session session' later result hrun hresult hchain hextends
  obtain ⟨result', later', hlater, hsame⟩ := h hrun hresult hchain hextends
  refine ⟨result', later', hlater, hsame.imp id fun hsame ↦ ?_⟩
  cases hsame with
  | ok hQ => exact .ok (himp _ _ hQ)
  | error failure => exact .error failure

/-- Results are looked at before going on; a collision ends everything. -/
theorem Follows.attempt_bind {first : Mapping α} {second : Mapping β}
    {next : Except Failure α → Mapping α'} {next' : Except Failure β → Mapping β'}
    (h : Follows first second Q)
    (hok : ∀ a b, Q a b → Follows (next (.ok a)) (next' (.ok b)) R)
    (herror : ∀ failure, failure.isCollision = false →
      Follows (next (.error failure)) (next' (.error failure)) R)
    (hfirst : ∀ failure, failure.isCollision → next (.error failure) = fail failure)
    (hsecond : ∀ failure, failure.isCollision → next' (.error failure) = fail failure)
    (hclaims : Claims library allowed first) (hclaims' : Claims library allowed second)
    (hnext : ∀ result, Claims library allowed (next result)) :
    Follows (attempt first >>= next) (attempt second >>= next') R := by
  intro session session' later result hrun hresult hchain hextends
  rw [run_bind, run_attempt] at hrun
  cases hinner : first session with
  | none => rw [hinner] at hrun; cases hrun
  | some run =>
    obtain ⟨mid, between⟩ := run
    rw [hinner] at hrun
    replace hrun : next mid between = some (result, session') := hrun
    obtain ⟨hbetween, hgrows⟩ := hclaims _ _ _ hinner
    have hnextGrows := (hnext mid _ _ _ hrun).2
    have hmid : ¬Collides mid := by
      rintro ⟨failure, rfl, hcollision⟩
      rw [hfirst failure hcollision] at hrun
      cases hrun
      exact hresult ⟨failure, rfl, hcollision⟩
    obtain ⟨mid', later', hlater, hmatch⟩ :=
      h hinner hmid hchain (hnextGrows.extends.trans hextends)
    obtain ⟨hchain', hgrows'⟩ := hclaims' _ _ _ hlater
    have hgo : (attempt second >>= next') later = next' mid' later' := by
      rw [run_bind, run_attempt, hlater]
      rfl
    rw [hgo]
    have hstart : later'.chain = between.chain := by rw [hchain', hchain, hbetween]
    have hstems : session'.registry.Extends later'.registry := hextends.trans hgrows'.extends
    obtain ⟨failure, rfl, hcollision⟩ | hsame := hmatch
    · rw [hsecond failure hcollision]
      exact ⟨.error failure, later', rfl, .inl ⟨failure, rfl, hcollision⟩⟩
    · cases hsame with
      | ok hQ => exact hok _ _ hQ hrun hresult hstart hstems
      | error failure =>
        have hplain : failure.isCollision = false := by
          cases hcollision : failure.isCollision with
          | false => rfl
          | true => exact absurd ⟨failure, rfl, hcollision⟩ hmid
        exact herror failure hplain hrun hresult hstart hstems

theorem attempt_bind_eq (mapping : Mapping α) (next : α → Mapping β) :
    (attempt mapping >>= fun result ↦ ofExcept result >>= next) = mapping >>= next := by
  funext session
  rw [run_bind, run_attempt, run_bind]
  cases mapping session with
  | none => rfl
  | some run =>
    obtain ⟨result, session'⟩ := run
    cases result <;> rfl

theorem Follows.bind {first : Mapping α} {second : Mapping β} {next : α → Mapping α'}
    {next' : β → Mapping β'} (h : Follows first second Q)
    (hnext : ∀ a b, Q a b → Follows (next a) (next' b) R)
    (hclaims : Claims library allowed first) (hclaims' : Claims library allowed second)
    (hnextClaims : ∀ a, Claims library allowed (next a)) :
    Follows (first >>= next) (second >>= next') R := by
  rw [← attempt_bind_eq first next, ← attempt_bind_eq second next']
  refine h.attempt_bind hnext (fun failure _ ↦ ?_) (fun _ _ ↦ rfl) (fun _ _ ↦ rfl) hclaims hclaims'
    fun result ↦ (claims_ofExcept result).bind hnextClaims
  have hfail : Follows (ofExcept (.error failure)) (ofExcept (.error failure)) R :=
    follows_ofExcept fun _ ↦ .inr (.error failure)
  exact hfail

theorem Follows.following {first : Mapping α} {second : Mapping β} (h : Follows first second Q)
    (key path : String) : Follows (following key path first) (following key path second) Q := by
  intro session session' later result hrun hresult hchain hextends
  by_cases hkey : key ∈ session.chain
  · rw [run_following, if_pos hkey] at hrun
    cases hrun
    rw [run_following, if_pos (hchain ▸ hkey), hchain]
    exact ⟨_, later, rfl, .inr (.error _)⟩
  · obtain ⟨after, hbody, rfl⟩ := following_eq_some hkey hrun
    have hpush : (later.push key).chain = (session.push key).chain := congrArg (key :: ·) hchain
    obtain ⟨result', later', hlater, hsame⟩ := h hbody hresult hpush hextends
    rw [run_following, if_neg (hchain ▸ hkey), hlater]
    exact ⟨result', later'.pop, rfl, hsame⟩

/-- Both claim a stem for the same path, and get the same one. -/
theorem follows_claim (library : Library) (document : Document) (path : String)
    (kind : SymbolKind) (stem : String) :
    Follows (claim library document path kind stem) (claim library document path kind stem)
      (· = ·) := by
  intro session session' later result hrun _ _ hextends
  rw [run_claim] at hrun
  cases hrun
  refine ⟨_, _, run_claim library document path kind stem later, .inr ?_⟩
  have hstem := hextends _ _ (Registry.stem?_claim session.registry library document path kind stem)
  rw [Registry.claim_fst_of_stem? hstem]
  exact .ok rfl

theorem follows_warn : Follows warn warn fun _ _ ↦ True := by
  intro session session' later result hrun _ _ _
  cases hrun
  exact ⟨.ok (), _, run_warn later, .inr (.ok trivial)⟩

/-- A mapping that always ends, in a value with the property or in a collision. -/
def Aside (P : γ → Prop) (mapping : Mapping γ) : Prop :=
  ∀ session, ∃ result session', mapping session = some (result, session') ∧
    (Collides result ∨ ∃ value, result = .ok value ∧ P value)

theorem aside_claim (library : Library) (document : Document) (path : String)
    (kind : SymbolKind) (stem : String) :
    Aside (fun _ ↦ True) (claim library document path kind stem) :=
  fun session ↦ ⟨_, _, run_claim library document path kind stem session, .inr ⟨_, rfl, trivial⟩⟩

theorem aside_ofExcept {result : Except Failure γ}
    (h : ∀ failure, result = .error failure → failure.isCollision) :
    Aside (fun value ↦ result = .ok value) (ofExcept result) := by
  intro session
  refine ⟨result, session, run_ofExcept result session, ?_⟩
  cases result with
  | ok value => exact .inr ⟨value, rfl, rfl⟩
  | error failure => exact .inl ⟨failure, rfl, h failure rfl⟩

theorem Follows.aside_first {aside : Mapping γ} {P : γ → Prop} {next : γ → Mapping α}
    {second : Mapping β} (haside : Aside P aside) (hclaims : Claims library allowed aside)
    (h : ∀ value, P value → Follows (next value) second Q) : Follows (aside >>= next) second Q := by
  intro session session' later result hrun hresult hchain hextends
  obtain ⟨mid, between, hmid, hvalue⟩ := haside session
  obtain ⟨failure, rfl, hcollision⟩ | ⟨value, rfl, hP⟩ := hvalue
  · rw [run_bind_error hmid] at hrun
    cases hrun
    exact absurd ⟨failure, rfl, hcollision⟩ hresult
  · rw [run_bind_ok hmid] at hrun
    exact h value hP hrun hresult (hchain.trans (hclaims _ _ _ hmid).1.symm) hextends

theorem Follows.aside_second {aside : Mapping γ} {P : γ → Prop} {first : Mapping α}
    {next : γ → Mapping β} (haside : Aside P aside) (hclaims : Claims library allowed aside)
    (h : ∀ value, P value → Follows first (next value) Q) : Follows first (aside >>= next) Q := by
  intro session session' later result hrun hresult hchain hextends
  obtain ⟨mid, between, hmid, hvalue⟩ := haside later
  obtain ⟨failure, rfl, hcollision⟩ | ⟨value, rfl, hP⟩ := hvalue
  · exact ⟨.error failure, between, run_bind_error hmid next, .inl ⟨failure, rfl, hcollision⟩⟩
  · obtain ⟨hbetween, hgrows⟩ := hclaims _ _ _ hmid
    rw [run_bind_ok hmid]
    exact h value hP hrun hresult (hbetween.trans hchain) (hextends.trans hgrows.extends)

/-- A mapping without effects is followed by the same one with a larger budget. -/
theorem Static.follows {first second : Mapping α} {P : α → Prop} (h : Static first)
    (hrefines : first.Refines second)
    (hP : ∀ session value session', first session = some (.ok value, session') → P value) :
    Follows first second fun a b ↦ a = b ∧ P a := by
  intro session session' later result hrun _ hchain _
  obtain ⟨-, hlater⟩ := h.run_of_chain_eq hrun hchain
  refine ⟨result, later, hrefines _ _ hlater, .inr ?_⟩
  cases result with
  | ok value => exact .ok ⟨rfl, hP _ _ _ hrun⟩
  | error failure => exact .error failure

end Mapping

/-- Which of the two sides runs first. -/
inductive Order where
  | nativeFirst
  | wireFirst

open Mapping

/-- A native and a wire mapping agree in the given order. -/
structure Matches (library : Library) (order : Order) {α β : Type} (native : Mapping α)
    (wire : Mapping β) (Q : α → β → Prop) : Prop where
  native_claims : native.Claims library fun _ _ ↦ True
  wire_claims : wire.Claims library fun _ _ ↦ True
  nativeFirst : order = .nativeFirst → Follows native wire Q
  wireFirst : order = .wireFirst → Follows wire native fun b a ↦ Q a b

namespace Matches

variable {α β α' β' γ : Type} {library : Library} {order : Order} {native : Mapping α}
  {wire : Mapping β} {Q : α → β → Prop} {R : α' → β' → Prop}

theorem ofExcept {first : Except Failure α} {second : Except Failure β}
    (h : Collides first ∨ Collides second ∨ Same Q first second) :
    Matches library order (Mapping.ofExcept first) (Mapping.ofExcept second) Q where
  native_claims := claims_ofExcept first
  wire_claims := claims_ofExcept second
  nativeFirst _ := follows_ofExcept fun hfirst ↦ h.resolve_left hfirst
  wireFirst _ := follows_ofExcept fun hsecond ↦ by
    obtain hfirst | hsecond' | hsame := h
    · exact .inl hfirst
    · exact absurd hsecond' hsecond
    · exact .inr hsame.symm

theorem pure {a : α} {b : β} (h : Q a b) :
    Matches library order (Pure.pure a) (Pure.pure b) Q := by
  have hmatches : Matches library order (Mapping.ofExcept (.ok a)) (Mapping.ofExcept (.ok b)) Q :=
    ofExcept (.inr (.inr (.ok h)))
  exact hmatches

theorem fail (failure : Failure) :
    Matches library order (Mapping.fail failure) (Mapping.fail failure) Q := by
  have hmatches : Matches library order (Mapping.ofExcept (.error failure))
      (Mapping.ofExcept (.error failure)) Q :=
    ofExcept (.inr (.inr (.error failure)))
  exact hmatches

theorem attempt_bind {next : Except Failure α → Mapping α'} {next' : Except Failure β → Mapping β'}
    (h : Matches library order native wire Q)
    (hok : ∀ a b, Q a b → Matches library order (next (.ok a)) (next' (.ok b)) R)
    (herror : ∀ failure, Matches library order (next (.error failure)) (next' (.error failure)) R)
    (hnative : ∀ failure, failure.isCollision → next (.error failure) = Mapping.fail failure)
    (hwire : ∀ failure, failure.isCollision → next' (.error failure) = Mapping.fail failure)
    (hclaims : ∀ result, (next result).Claims library fun _ _ ↦ True)
    (hclaims' : ∀ result, (next' result).Claims library fun _ _ ↦ True) :
    Matches library order (Mapping.attempt native >>= next) (Mapping.attempt wire >>= next') R where
  native_claims := h.native_claims.attempt.bind hclaims
  wire_claims := h.wire_claims.attempt.bind hclaims'
  nativeFirst horder := (h.nativeFirst horder).attempt_bind
    (fun a b hQ ↦ (hok a b hQ).nativeFirst horder)
    (fun failure _ ↦ (herror failure).nativeFirst horder) hnative hwire h.native_claims
    h.wire_claims hclaims
  wireFirst horder := (h.wireFirst horder).attempt_bind
    (fun b a hQ ↦ (hok a b hQ).wireFirst horder) (fun failure _ ↦ (herror failure).wireFirst horder)
    hwire hnative h.wire_claims h.native_claims hclaims'

theorem bind {next : α → Mapping α'} {next' : β → Mapping β'}
    (h : Matches library order native wire Q)
    (hnext : ∀ a b, Q a b → Matches library order (next a) (next' b) R)
    (hclaims : ∀ a, (next a).Claims library fun _ _ ↦ True)
    (hclaims' : ∀ b, (next' b).Claims library fun _ _ ↦ True) :
    Matches library order (native >>= next) (wire >>= next') R where
  native_claims := h.native_claims.bind hclaims
  wire_claims := h.wire_claims.bind hclaims'
  nativeFirst horder := (h.nativeFirst horder).bind
    (fun a b hQ ↦ (hnext a b hQ).nativeFirst horder) h.native_claims h.wire_claims hclaims
  wireFirst horder := (h.wireFirst horder).bind
    (fun b a hQ ↦ (hnext a b hQ).wireFirst horder) h.wire_claims h.native_claims hclaims'

theorem following (h : Matches library order native wire Q) (key path : String) :
    Matches library order (Mapping.following key path native) (Mapping.following key path wire)
      Q where
  native_claims := h.native_claims.following key path
  wire_claims := h.wire_claims.following key path
  nativeFirst horder := (h.nativeFirst horder).following key path
  wireFirst horder := (h.wireFirst horder).following key path

/-- Both sides claim the stem of the same schema and go on with the same stem. -/
theorem claim_bind {document : Document} {request : Request} {kind : SymbolKind} {label : String}
    {next : String → Mapping α} {next' : String → Mapping β}
    (h : ∀ stem, Matches library order (next stem) (next' stem) Q) :
    Matches library order (request.claim library document kind label >>= next)
      (request.claim library document kind label >>= next') Q := by
  have hclaim : Matches library order (request.claim library document kind label)
      (request.claim library document kind label) (· = ·) :=
    ⟨claims_claim trivial _ _, claims_claim trivial _ _, fun _ ↦ follows_claim _ _ _ _ _,
      fun _ ↦ (follows_claim _ _ _ _ _).imp fun _ _ heq ↦ heq.symm⟩
  refine hclaim.bind ?_ (fun stem ↦ (h stem).native_claims) fun stem ↦ (h stem).wire_claims
  rintro stem _ rfl
  exact h stem

/-- The native side does something more, which cannot go wrong but by a collision. -/
theorem aside_native {aside : Mapping γ} {P : γ → Prop} {next : γ → Mapping α}
    (haside : Aside P aside) (hclaims : aside.Claims library fun _ _ ↦ True)
    (hnextClaims : ∀ value, (next value).Claims library fun _ _ ↦ True)
    (hwire : wire.Claims library fun _ _ ↦ True)
    (h : ∀ value, P value → Matches library order (next value) wire Q) :
    Matches library order (aside >>= next) wire Q where
  native_claims := hclaims.bind hnextClaims
  wire_claims := hwire
  nativeFirst horder := .aside_first haside hclaims fun value hP ↦ (h value hP).nativeFirst horder
  wireFirst horder := .aside_second haside hclaims fun value hP ↦ (h value hP).wireFirst horder

theorem aside_wire {aside : Mapping γ} {P : γ → Prop} {next : γ → Mapping β}
    (haside : Aside P aside) (hclaims : aside.Claims library fun _ _ ↦ True)
    (hnextClaims : ∀ value, (next value).Claims library fun _ _ ↦ True)
    (hnative : native.Claims library fun _ _ ↦ True)
    (h : ∀ value, P value → Matches library order native (next value) Q) :
    Matches library order native (aside >>= next) Q where
  native_claims := hnative
  wire_claims := hclaims.bind hnextClaims
  nativeFirst horder := .aside_second haside hclaims fun value hP ↦ (h value hP).nativeFirst horder
  wireFirst horder := .aside_first haside hclaims fun value hP ↦ (h value hP).wireFirst horder

theorem warn : Matches library order Mapping.warn Mapping.warn fun _ _ ↦ True :=
  ⟨claims_warn, claims_warn, fun _ ↦ follows_warn, fun _ ↦ follows_warn⟩

theorem foldlM {δ : Type} {step : α → δ → Mapping α} {step' : β → δ → Mapping β} {xs : List δ}
    (hstep : ∀ x ∈ xs, ∀ a b, Q a b → Matches library order (step a x) (step' b x) Q)
    (hclaims : ∀ a x, (step a x).Claims library fun _ _ ↦ True)
    (hclaims' : ∀ b x, (step' b x).Claims library fun _ _ ↦ True) {a : α} {b : β} (h : Q a b) :
    Matches library order (xs.foldlM step a) (xs.foldlM step' b) Q := by
  induction xs generalizing a b with
  | nil => exact .pure h
  | cons x rest ih =>
    rw [List.foldlM_cons, List.foldlM_cons]
    refine (hstep x List.mem_cons_self a b h).bind (fun a' b' h' ↦ ?_)
      (fun a' ↦ .foldlM hclaims rest a') fun b' ↦ .foldlM hclaims' rest b'
    exact ih (fun y hy ↦ hstep y (List.mem_cons_of_mem x hy)) h'

end Matches

end SchemaBindings
