import Mathlib.Data.Finset.Card
import Mathlib.Order.Interval.Finset.Nat
import SchemaBindings.Proofs.Growth

/-!
# Who owns a symbol

A stem that is claimed for the first time is the first choice that no other path blocks. There
always is one: the choices of a stem share no symbols, so each owned symbol blocks one choice at
most, and only finitely many symbols are owned. A path that has a stem keeps it, and a symbol that
has an owner keeps it, whatever is claimed or reserved afterwards. The main statement puts this
together for a whole sequence of claims.
-/

namespace SchemaBindings

/-! ## Choices of a stem -/

namespace Names

/-- What the `n`-th choice of a stem has behind the stem. -/
def number (n : Nat) : String := if n ≤ 1 then "" else "_" ++ toString n

theorem toString_injective {n m : Nat} (h : toString n = toString m) : n = m := by
  have hdigits : Nat.toDigits 10 n = Nat.toDigits 10 m := by
    simpa only [Nat.toString_eq_repr, Nat.toList_repr] using congrArg String.toList h
  calc
    n = Nat.ofDigitChars 10 (Nat.toDigits 10 n) 0 :=
      (Nat.ofDigitChars_toDigits (by decide) (by decide)).symm
    _ = Nat.ofDigitChars 10 (Nat.toDigits 10 m) 0 := by rw [hdigits]
    _ = m := Nat.ofDigitChars_toDigits (by decide) (by decide)

theorem number_injective {n m : Nat} (hn : 1 ≤ n) (hm : 1 ≤ m) (h : number n = number m) :
    n = m := by
  have hnumbered : ∀ k : Nat, "_" ++ toString k ≠ "" := by
    intro k heq
    simpa using congrArg String.length heq
  unfold number at h
  split at h <;> split at h
  · omega
  · exact absurd h.symm (hnumbered m)
  · exact absurd h (hnumbered n)
  · exact toString_injective ((String.append_right_inj _).1 h)

/-- A choice with a word behind it is no other choice. -/
theorem number_append_handle_ne (n m : Nat) : number n ++ "Handle" ≠ number m := by
  intro h
  have hlast : (number m).toList.getLast? = some 'e' := by
    rw [← h]
    simp
  have hmem : 'e' ∈ (number m).toList := List.mem_of_getLast? hlast
  unfold number at hmem
  split at hmem
  · simp at hmem
  · have hdigit : 'e' ∈ Nat.toDigits 10 m := by simpa using hmem
    have hisDigit := Nat.isDigit_of_mem_toDigits (by decide) (by decide) hdigit
    exact absurd hisDigit (by decide)

end Names

theorem Registry.candidate_eq (stem : String) (n : Nat) :
    candidate stem n = stem ++ Names.number n := by
  unfold candidate Names.number
  split
  · simp
  · simp [String.append_assoc]

namespace SymbolKind

/-- What a stem of this kind has behind it in the symbols that it occupies. -/
def endings : SymbolKind → List String
  | enumeration => [""]
  | object => ["Handle", ""]
  | map => ["Handle", ""]
  | array => ["ArrayHandle", "Array"]

theorem symbols_eq (kind : SymbolKind) (title stem : String) :
    kind.symbols title stem = kind.endings.map (Names.qualified title stem ++ ·) := by
  cases kind <;> simp [symbols, endings]

theorem number_ending_injective {kind : SymbolKind} {left right : String}
    (hleft : left ∈ kind.endings) (hright : right ∈ kind.endings) {n m : Nat} (hn : 1 ≤ n)
    (hm : 1 ≤ m) (h : Names.number n ++ left = Names.number m ++ right) : n = m := by
  by_cases hsame : left = right
  · subst hsame
    exact Names.number_injective hn hm ((String.append_left_inj _).1 h)
  have harray : ∀ k l : Nat, Names.number k ++ "ArrayHandle" ≠ Names.number l ++ "Array" := by
    intro k l heq
    have hlast := congrArg (fun text ↦ text.toList.getLast?) heq
    simp at hlast
  have hplain : ∀ k l : Nat, Names.number k ++ "Handle" ≠ Names.number l ++ "" := by
    intro k l heq
    rw [String.append_empty] at heq
    exact Names.number_append_handle_ne k l heq
  cases kind with
  | enumeration => simp_all [endings]
  | array =>
    simp only [endings, List.mem_cons, List.not_mem_nil, or_false] at hleft hright
    obtain rfl | rfl := hleft <;> obtain rfl | rfl := hright
    · exact absurd rfl hsame
    · exact absurd h (harray n m)
    · exact absurd h.symm (harray m n)
    · exact absurd rfl hsame
  | object | map =>
    simp only [endings, List.mem_cons, List.not_mem_nil, or_false] at hleft hright
    obtain rfl | rfl := hleft <;> obtain rfl | rfl := hright
    · exact absurd rfl hsame
    · exact absurd h (hplain n m)
    · exact absurd h.symm (hplain m n)
    · exact absurd rfl hsame

/-- Two choices of a stem share no symbol. -/
theorem candidate_unique {kind : SymbolKind} {title stem symbol : String} {n m : Nat} (hn : 1 ≤ n)
    (hm : 1 ≤ m) (h : symbol ∈ kind.symbols title (Registry.candidate stem n))
    (h' : symbol ∈ kind.symbols title (Registry.candidate stem m)) : n = m := by
  rw [symbols_eq, List.mem_map] at h h'
  obtain ⟨left, hleft, heq⟩ := h
  obtain ⟨right, hright, heq'⟩ := h'
  have hboth := heq.trans heq'.symm
  have htails : Names.number n ++ left = Names.number m ++ right := by
    simpa only [Registry.candidate_eq, Names.qualified, String.append_assoc,
      String.append_right_inj] using hboth
  exact number_ending_injective hleft hright hn hm htails

end SymbolKind

namespace Registry

/-! ## The first free choice -/

/-- The path that a symbol belongs to, once it belongs to one. -/
def owner? (registry : Registry) (symbol : String) : Option String :=
  Table.get? symbol registry.owners

/-- Some symbol of the stem belongs to another path. -/
def Taken (registry : Registry) (title path : String) (kind : SymbolKind) (stem : String) : Prop :=
  ∃ symbol ∈ kind.symbols title stem, ∃ owner ∈ registry.owner? symbol, owner ≠ path

variable {registry : Registry} {title path stem symbol : String} {kind : SymbolKind}

theorem ownedByOther_iff :
    registry.ownedByOther path symbol ↔ ∃ owner ∈ registry.owner? symbol, owner ≠ path := by
  unfold ownedByOther owner?
  cases Table.get? symbol registry.owners <;> simp

theorem isBlocked_iff :
    registry.isBlocked title path kind stem ↔ registry.Taken title path kind stem := by
  unfold isBlocked Taken
  rw [List.any_eq_true]
  simp only [ownedByOther_iff]

theorem firstFree_eq (blocked : String → Bool) (stem : String) (bound n : Nat) :
    ∃ k, n ≤ k ∧ firstFree blocked stem bound n = candidate stem k ∧
      (∀ j, n ≤ j → j < k → blocked (candidate stem j)) ∧
      (blocked (candidate stem k) → k = n + bound) := by
  induction bound generalizing n with
  | zero => exact ⟨n, le_rfl, rfl, fun j hj hlt ↦ absurd hlt (by omega), fun _ ↦ rfl⟩
  | succ bound ih =>
    unfold firstFree
    by_cases hblocked : blocked (candidate stem n)
    · rw [if_pos hblocked]
      obtain ⟨k, hk, heq, hbefore, hlast⟩ := ih (n + 1)
      refine ⟨k, by omega, heq, fun j hj hlt ↦ ?_, fun h ↦ ?_⟩
      · obtain rfl | hlater := eq_or_lt_of_le hj
        · exact hblocked
        · exact hbefore j hlater hlt
      · have := hlast h
        omega
    · rw [if_neg hblocked]
      exact ⟨n, le_rfl, rfl, fun j hj hlt ↦ absurd hlt (by omega), fun h ↦ absurd h hblocked⟩

theorem mem_keys_owners {owner : String} (h : owner ∈ registry.owner? symbol) :
    symbol ∈ Table.keys registry.owners := by
  have hmem := Table.mem_of_get?_eq_some h
  exact List.mem_map_of_mem (f := Prod.fst) hmem

/-- Not all of the first choices are taken, if there is one more of them than owned symbols. -/
theorem exists_not_taken (registry : Registry) (title path : String) (kind : SymbolKind)
    (stem : String) : ∃ k, 1 ≤ k ∧ k ≤ registry.owners.length + 1 ∧
      ¬registry.Taken title path kind (candidate stem k) := by
  by_contra hall
  have htaken : ∀ k ∈ Finset.Icc 1 (registry.owners.length + 1),
      ∃ symbol ∈ kind.symbols title (candidate stem k), symbol ∈ Table.keys registry.owners := by
    intro k hk
    rw [Finset.mem_Icc] at hk
    by_contra hfree
    refine hall ⟨k, hk.1, hk.2, ?_⟩
    rintro ⟨symbol, hsymbol, owner, howner, -⟩
    exact hfree ⟨symbol, hsymbol, mem_keys_owners howner⟩
  choose! found hsymbol howned using htaken
  have hcard : (Table.keys registry.owners).toFinset.card <
      (Finset.Icc 1 (registry.owners.length + 1)).card := by
    have hkeys := (Table.keys registry.owners).toFinset_card_le
    have hlength : (Table.keys registry.owners).length = registry.owners.length :=
      List.length_map _
    rw [Nat.card_Icc]
    omega
  have hmaps : Set.MapsTo found (Finset.Icc 1 (registry.owners.length + 1))
      (Table.keys registry.owners).toFinset := by
    intro k hk
    simpa using howned k hk
  obtain ⟨n, hn, m, hm, hne, heq⟩ := Finset.exists_ne_map_eq_of_card_lt_of_maps_to hcard hmaps
  have hshared := hsymbol m hm
  rw [← heq] at hshared
  exact hne (SymbolKind.candidate_unique (Finset.mem_Icc.1 hn).1 (Finset.mem_Icc.1 hm).1
    (hsymbol n hn) hshared)

/-- The stem that is found is the first choice that is not taken. -/
theorem freeStem_eq (registry : Registry) (title path : String) (kind : SymbolKind)
    (stem : String) : ∃ k, 1 ≤ k ∧ registry.freeStem title path kind stem = candidate stem k ∧
      ¬registry.Taken title path kind (candidate stem k) ∧
      ∀ j, 1 ≤ j → j < k → registry.Taken title path kind (candidate stem j) := by
  obtain ⟨k, hk, heq, hbefore, hlast⟩ :=
    firstFree_eq (registry.isBlocked title path kind) stem registry.owners.length 1
  have htaken : ∀ j, 1 ≤ j → j < k → registry.Taken title path kind (candidate stem j) :=
    fun j hj hlt ↦ isBlocked_iff.1 (hbefore j hj hlt)
  refine ⟨k, hk, heq, fun hblocked ↦ ?_, htaken⟩
  have hbound := hlast (isBlocked_iff.2 hblocked)
  obtain ⟨free, hfree, hle, hnot⟩ := exists_not_taken registry title path kind stem
  obtain rfl | hlt := eq_or_lt_of_le (show free ≤ k by omega)
  · exact hnot hblocked
  · exact hnot (htaken free hfree hlt)

/-- How a stem is found: it is the preferred one, else the one with the least free number. -/
inductive Finds (registry : Registry) (title path : String) (kind : SymbolKind)
    (preferred : String) : String → Prop
  | preferred (h : ¬registry.Taken title path kind preferred) :
      Finds registry title path kind preferred preferred
  | numbered {k : Nat} (h : registry.Taken title path kind preferred) (hk : 2 ≤ k)
      (hfree : ¬registry.Taken title path kind (preferred ++ "_" ++ toString k))
      (hleast : ∀ j, 2 ≤ j → j < k →
        registry.Taken title path kind (preferred ++ "_" ++ toString j)) :
      Finds registry title path kind preferred (preferred ++ "_" ++ toString k)

theorem candidate_one (stem : String) : candidate stem 1 = stem := rfl

theorem candidate_of_two_le {n : Nat} (h : 2 ≤ n) (stem : String) :
    candidate stem n = stem ++ "_" ++ toString n :=
  if_neg (by omega)

theorem finds_freeStem (registry : Registry) (title path : String) (kind : SymbolKind)
    (preferred : String) :
    registry.Finds title path kind preferred (registry.freeStem title path kind preferred) := by
  obtain ⟨k, hk, heq, hfree, htaken⟩ := freeStem_eq registry title path kind preferred
  rw [heq]
  obtain rfl | hlt := eq_or_lt_of_le hk
  · rw [candidate_one] at hfree ⊢
    exact .preferred hfree
  · rw [candidate_of_two_le hlt] at hfree ⊢
    refine .numbered (htaken 1 le_rfl hlt) hlt hfree fun j hj hjk ↦ ?_
    have hbefore := htaken j (by omega) hjk
    rwa [candidate_of_two_le hj] at hbefore

theorem Finds.not_taken {preferred : String}
    (h : registry.Finds title path kind preferred stem) :
    ¬registry.Taken title path kind stem := by
  cases h with
  | preferred h => exact h
  | numbered _ _ hfree _ => exact hfree

/-! ## Owners are kept -/

theorem get?_owned (symbols : List String) (path symbol : String)
    (owners : List (String × String)) :
    Table.get? symbol (symbols.map (·, path) ++ owners) =
      if symbol ∈ symbols then some path else Table.get? symbol owners := by
  induction symbols with
  | nil => simp
  | cons first rest ih =>
    rw [List.map_cons, List.cons_append, Table.get?, ih]
    by_cases hfirst : first = symbol
    · simp [hfirst]
    · simp [hfirst, Ne.symm hfirst]

theorem owner?_assign (registry : Registry) (title path : String) (kind : SymbolKind)
    (preferred symbol : String) (h : registry.stem? path = none) :
    (registry.assign title path kind preferred).2.owner? symbol =
      if symbol ∈ kind.symbols title (registry.assign title path kind preferred).1 then some path
      else registry.owner? symbol := by
  unfold stem? at h
  unfold assign
  rw [h]
  exact get?_owned _ _ _ _

theorem stem?_assign_of_ne {other : String} (hne : path ≠ other) (registry : Registry)
    (title : String) (kind : SymbolKind) (preferred : String) :
    (registry.assign title path kind preferred).2.stem? other = registry.stem? other := by
  cases h : registry.stem? path with
  | some stem => rw [assign_of_stem? h]
  | none =>
    unfold stem? at h
    unfold assign
    rw [h]
    exact if_neg hne

/-- Without a stem yet, the path gets one that is found. -/
theorem finds_assign (h : registry.stem? path = none) (title : String) (kind : SymbolKind)
    (preferred : String) : registry.Finds title path kind preferred
      (registry.assign title path kind preferred).1 := by
  have hfree : (registry.assign title path kind preferred).1 =
      registry.freeStem title path kind preferred := by
    unfold stem? at h
    unfold assign
    rw [h]
  rw [hfree]
  exact finds_freeStem registry title path kind preferred

/-- A symbol that belongs to a path belongs to it after any other assignment. -/
theorem owner?_assign_of_owner? {owner : String} (h : registry.owner? symbol = some owner)
    (title path : String) (kind : SymbolKind) (preferred : String) :
    (registry.assign title path kind preferred).2.owner? symbol = some owner := by
  cases hstem : registry.stem? path with
  | some stem =>
    rw [assign_of_stem? hstem]
    exact h
  | none =>
    rw [owner?_assign _ _ _ _ _ _ hstem]
    split
    · rename_i hsymbol
      by_contra hne
      have hother : owner ≠ path := fun heq ↦ hne (by rw [heq])
      exact (finds_assign hstem title kind preferred).not_taken ⟨symbol, hsymbol, owner, h, hother⟩
    · exact h

/-! ## Sequences of claims -/

deriving instance DecidableEq for Claim

/-- What happens to a registry: definitions count as reserved from now on, or a path is assigned
a stem in the document with this title. -/
inductive Event where
  | reserve (uri : String)
  | assign (title : String) (claim : Claim)
  deriving DecidableEq

def Event.apply (registry : Registry) : Event → Registry
  | reserve uri => { registry with reserved := uri :: registry.reserved }
  | assign title claim => (registry.assign title claim.path claim.kind claim.stem).2

def after (registry : Registry) (events : List Event) : Registry :=
  events.foldl Event.apply registry

/-- What a claim amounts to: the first one in a document comes after its definitions. -/
def events (registry : Registry) (library : Library) (document : Document) (claim : Claim) :
    List Event :=
  (if registry.reserved.contains document.uri then []
    else .reserve document.uri ::
      (definitionClaims library document).map (.assign document.title)) ++
    [.assign document.title claim]

/-- The registry after a sequence of claims. -/
def claimAll (library : Library) (calls : List (Document × Claim)) (registry : Registry) :
    Registry :=
  calls.foldl (fun registry call ↦
    (registry.claim library call.1 call.2.path call.2.kind call.2.stem).2) registry

/-- What a sequence of claims amounts to. -/
def history (library : Library) : Registry → List (Document × Claim) → List Event
  | _, [] => []
  | registry, call :: rest =>
    registry.events library call.1 call.2 ++ history library (claimAll library [call] registry) rest

theorem after_append (registry : Registry) (first second : List Event) :
    registry.after (first ++ second) = (registry.after first).after second :=
  List.foldl_append

theorem after_assigns (title : String) (claims : List Claim) (registry : Registry) :
    registry.after (claims.map (.assign title)) = assignAll title claims registry :=
  List.foldl_map

theorem after_events (registry : Registry) (library : Library) (document : Document)
    (c : Claim) :
    registry.after (registry.events library document c) =
      (registry.claim library document c.path c.kind c.stem).2 := by
  have hreserved : registry.reserveDefinitions library document =
      registry.after (if registry.reserved.contains document.uri then []
        else .reserve document.uri ::
          (definitionClaims library document).map (.assign document.title)) := by
    unfold reserveDefinitions
    split
    · rfl
    · exact (after_assigns _ _ _).symm
  unfold events claim
  rw [after_append, hreserved]
  rfl

theorem after_history (library : Library) (calls : List (Document × Claim))
    (registry : Registry) :
    registry.after (history library registry calls) = claimAll library calls registry := by
  induction calls generalizing registry with
  | nil => rfl
  | cons call rest ih =>
    have hfirst := after_events registry library call.1 call.2
    rw [history, after_append, hfirst]
    exact ih _

theorem Event.apply_extends (registry : Registry) (event : Event) :
    registry.Extends (event.apply registry) := by
  cases event with
  | reserve uri => exact .refl registry
  | assign title claim => exact assign_extends registry _ _ _ _

theorem after_extends (registry : Registry) (events : List Event) :
    registry.Extends (registry.after events) := by
  induction events generalizing registry with
  | nil => exact .refl registry
  | cons event rest ih => exact (Event.apply_extends registry event).trans (ih _)

theorem owner?_after {owner : String} (h : registry.owner? symbol = some owner)
    (events : List Event) : (registry.after events).owner? symbol = some owner := by
  induction events generalizing registry with
  | nil => exact h
  | cons event rest ih =>
    refine ih ?_
    cases event with
    | reserve uri => exact h
    | assign title claim => exact owner?_assign_of_owner? h _ _ _ _

/-- The path is assigned no stem by these events. -/
def Unassigned (path : String) (events : List Event) : Prop :=
  ∀ title claim, .assign title claim ∈ events → claim.path ≠ path

theorem stem?_after_of_unassigned {events : List Event} (hunassigned : Unassigned path events)
    (h : registry.stem? path = none) : (registry.after events).stem? path = none := by
  induction events generalizing registry with
  | nil => exact h
  | cons event rest ih =>
    refine ih (fun title claim hmem ↦ hunassigned title claim (List.mem_cons_of_mem _ hmem)) ?_
    cases event with
    | reserve uri => exact h
    | assign title claim =>
      have hne := hunassigned title claim List.mem_cons_self
      exact (stem?_assign_of_ne hne registry _ _ _).trans h

/-- A sequence of claims assigns the path of `claim` its first stem after `before`. -/
structure AssignsFirst (library : Library) (calls : List (Document × Claim))
    (before : List Event) (title : String) (claim : Claim) (rest : List Event) : Prop where
  split : history library {} calls = before ++ .assign title claim :: rest
  first : Unassigned claim.path before

/-- The stem and all of its symbols are those of the path. -/
structure Holds (registry : Registry) (title : String) (claim : Claim) (stem : String) :
    Prop where
  stem_eq : registry.stem? claim.path = some stem
  owner_eq : ∀ symbol ∈ claim.kind.symbols title stem, registry.owner? symbol = some claim.path

theorem Holds.after {claim : Claim} (h : registry.Holds title claim stem)
    (events : List Event) : (registry.after events).Holds title claim stem where
  stem_eq := after_extends registry events _ _ h.stem_eq
  owner_eq symbol hsymbol := owner?_after (h.owner_eq symbol hsymbol) events

/-- A first assignment finds a stem and puts the path in possession of it. -/
theorem holds_assign {claim : Claim} (h : registry.stem? claim.path = none) (title : String) :
    ∃ stem, registry.Finds title claim.path claim.kind claim.stem stem ∧
      (Event.apply registry (.assign title claim)).Holds title claim stem := by
  refine ⟨_, finds_assign h title claim.kind claim.stem, stem?_assign _ _ _ _ _, ?_⟩
  intro symbol hsymbol
  change (registry.assign _ _ _ _).2.owner? symbol = _
  rw [owner?_assign _ _ _ _ _ _ h, if_pos hsymbol]

theorem AssignsFirst.holds {library : Library} {calls : List (Document × Claim)}
    {before rest : List Event} {claim : Claim}
    (h : AssignsFirst library calls before title claim rest) :
    ∃ stem, (Registry.after {} before).Finds title claim.path claim.kind claim.stem stem ∧
      ∀ more, more <+: rest →
        (Registry.after {} (before ++ .assign title claim :: more)).Holds title claim stem := by
  obtain ⟨stem, hfinds, hholds⟩ :=
    holds_assign (stem?_after_of_unassigned h.first (rfl : stem? {} claim.path = none)) title
  refine ⟨stem, hfinds, fun more _ ↦ ?_⟩
  rw [after_append]
  exact hholds.after more

/-- In every sequence of claims on an empty registry: a claim answers with the stem that its path
has from then on; a path that is assigned a stem for the first time gets the preferred one, or the
one with the least number that is free, and owns its symbols from then on; and what two paths have
been assigned first has no symbol in common. -/
theorem claims_keep_symbols_apart (library : Library) (calls : List (Document × Claim)) :
    (∀ before document claim rest, calls = before ++ (document, claim) :: rest →
      ∀ more, more <+: rest →
        (claimAll library (before ++ (document, claim) :: more) {}).stem? claim.path =
          some ((claimAll library before {}).claim library document claim.path claim.kind
            claim.stem).1) ∧
    (∀ before title claim rest, AssignsFirst library calls before title claim rest →
      ∃ stem, (Registry.after {} before).Finds title claim.path claim.kind claim.stem stem ∧
        ∀ more, more <+: rest →
          (Registry.after {} (before ++ .assign title claim :: more)).Holds title claim stem) ∧
    ∀ before title claim rest before' title' claim' rest' stem stem',
      AssignsFirst library calls before title claim rest →
      AssignsFirst library calls before' title' claim' rest' → claim.path ≠ claim'.path →
      (claimAll library calls {}).stem? claim.path = some stem →
      (claimAll library calls {}).stem? claim'.path = some stem' →
        List.Disjoint (claim.kind.symbols title stem) (claim'.kind.symbols title' stem') := by
  refine ⟨?_, fun _ _ _ _ h ↦ h.holds, ?_⟩
  · intro before document c rest _ more _
    have hclaimed := stem?_claim (claimAll library before {}) library document c.path c.kind c.stem
    have hlater : claimAll library (before ++ (document, c) :: more) {} =
        claimAll library more ((claimAll library before {}).claim library document c.path c.kind
          c.stem).2 :=
      List.foldl_append
    rw [hlater, ← after_history]
    exact after_extends _ _ _ _ hclaimed
  · have hfinal : ∀ {before title claim rest stem},
        AssignsFirst library calls before title claim rest →
        (claimAll library calls {}).stem? claim.path = some stem →
        (claimAll library calls {}).Holds title claim stem := by
      intro before title claim rest stem h hstem
      obtain ⟨found, -, hholds⟩ := h.holds
      have hlast := hholds rest (List.prefix_refl rest)
      rw [← h.split, after_history] at hlast
      cases Option.some.inj (hlast.stem_eq.symm.trans hstem)
      exact hlast
    intro before title claim rest before' title' claim' rest' stem stem' h h' hne hstem hstem'
      symbol hsymbol hsymbol'
    have howner := (hfinal h hstem).owner_eq symbol hsymbol
    have howner' := (hfinal h' hstem').owner_eq symbol hsymbol'
    exact hne (Option.some.inj (howner.symm.trans howner'))

namespace Modes

def device : Document where
  uri := "Device"
  title := "Device"
  family := .schema
  definitionsRoot := "#/definitions"
  definitions := [("Mode", .ofKind (.enumeration ["on", "off"]))]
  methods := []
  content := .null

def setting : Claim := ⟨"Device#/methods/0/params/0/schema", .object, "Mode"⟩

def table : Claim := ⟨"Device#/methods/1/result/schema", .map, "Mode"⟩

/-- Two nested schemas that would like to be called after the definition. -/
def calls : List (Document × Claim) := [(device, setting), (device, table)]

def reserved : List Event :=
  [.reserve "Device", .assign "Device" ⟨"Device#/definitions/Mode", .enumeration, "Mode"⟩]

theorem history_calls : history ⟨[device]⟩ {} calls =
    reserved ++ [.assign "Device" setting, .assign "Device" table] := by
  rfl

theorem assignsFirst_setting :
    AssignsFirst ⟨[device]⟩ calls reserved "Device" setting [.assign "Device" table] where
  split := history_calls
  first := by
    intro title claim hmem
    simp only [reserved, List.mem_cons, List.not_mem_nil, or_false, reduceCtorEq,
      Event.assign.injEq, false_or] at hmem
    rw [hmem.2]
    decide

theorem assignsFirst_table :
    AssignsFirst ⟨[device]⟩ calls (reserved ++ [.assign "Device" setting]) "Device" table [] where
  split := history_calls
  first := by
    intro title claim hmem
    simp only [reserved, List.mem_append, List.mem_cons, List.not_mem_nil, or_false, reduceCtorEq,
      Event.assign.injEq, false_or] at hmem
    obtain ⟨-, rfl⟩ | ⟨-, rfl⟩ := hmem
    · decide
    · decide

theorem stem?_setting : (claimAll ⟨[device]⟩ calls {}).stem? setting.path = some "Mode_2" := by
  rfl

theorem stem?_table : (claimAll ⟨[device]⟩ calls {}).stem? table.path = some "Mode_3" := by
  rfl

/-- The definition keeps its name, and the others are numbered in turn. -/
theorem numbered_apart : List.Disjoint (SymbolKind.symbols .object "Device" "Mode_2")
    (SymbolKind.symbols .map "Device" "Mode_3") :=
  (claims_keep_symbols_apart ⟨[device]⟩ calls).2.2 _ _ _ _ _ _ _ _ _ _ assignsFirst_setting
    assignsFirst_table (by decide) stem?_setting stem?_table

end Modes

end Registry

end SchemaBindings
