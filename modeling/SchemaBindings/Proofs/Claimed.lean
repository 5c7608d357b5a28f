import SchemaBindings.Proofs.Breaks
import SchemaBindings.Proofs.Reserved

/-!
# Claims of a mapping

Which claims the mapping of a schema makes: those of the calls that are made in it. An enumeration,
an object or a map claims its stem at once, an array after its elements, since it is named after
them if it refers to them. Whatever the mapping comes to, its registry is the one before it after
these claims, and no others are made.
-/

namespace SchemaBindings

open Registry

namespace Mapping

variable {α β : Type} {library : Library} {session : Session} {made : Document × Claim → Prop}

/-- If the mapping has a result, it has made these claims and has changed the registry by them
alone. -/
def Makes (library : Library) (mapping : Mapping α) (session : Session)
    (made : Document × Claim → Prop) : Prop :=
  ∀ result session', mapping session = some (result, session') →
    ∃ calls, session'.registry = claimAll library calls session.registry ∧
      ∀ entry, entry ∈ calls ↔ made entry

/-- What is made may be told in another way that comes to the same in this run. -/
theorem Makes.congr {mapping : Mapping α} (h : mapping.Makes library session made)
    {made' : Document × Claim → Prop}
    (hmade : mapping.Halts session → ∀ entry, made entry ↔ made' entry) :
    mapping.Makes library session made' := by
  intro result session' hrun
  obtain ⟨calls, hregistry, hcalls⟩ := h result session' hrun
  exact ⟨calls, hregistry, fun entry ↦
    (hcalls entry).trans (hmade (halts_iff.2 ⟨_, _, hrun⟩) entry)⟩

theorem Makes.of_eq {mapping mapping' : Mapping α} (h : mapping'.Makes library session made)
    (hrun : mapping session = mapping' session) : mapping.Makes library session made :=
  fun result session' hsome ↦ h result session' (hrun.symm.trans hsome)

theorem makes_none {mapping : Mapping α}
    (h : ∀ result session', mapping session = some (result, session') →
      session'.registry = session.registry) :
    mapping.Makes library session fun _ ↦ False :=
  fun result session' hrun ↦ ⟨[], h result session' hrun, fun _ ↦ by simp⟩

theorem makes_ofExcept (result : Except Failure α) :
    (ofExcept result).Makes library session fun _ ↦ False :=
  makes_none fun found session' hrun ↦ by
    rw [run_ofExcept] at hrun
    cases hrun
    rfl

theorem makes_pure (value : α) : (pure value : Mapping α).Makes library session fun _ ↦ False :=
  makes_ofExcept (.ok value)

theorem makes_fail (failure : Failure) :
    (fail failure : Mapping α).Makes library session fun _ ↦ False :=
  makes_ofExcept (.error failure)

theorem makes_warn : warn.Makes library session fun _ ↦ False :=
  makes_none fun result session' hrun ↦ by
    cases hrun
    rfl

theorem makes_claim (document : Document) (path : String) (kind : SymbolKind) (stem : String) :
    (claim library document path kind stem).Makes library session
      fun entry ↦ entry = (document, ⟨path, kind, stem⟩) := by
  intro result session' hrun
  rw [run_claim] at hrun
  cases hrun
  exact ⟨[(document, ⟨path, kind, stem⟩)], rfl, fun _ ↦ List.mem_singleton⟩

theorem Makes.bind {mapping : Mapping α} {next : α → Mapping β}
    {later : α → Session → Document × Claim → Prop} (h : mapping.Makes library session made)
    (hnext : ∀ value between, mapping session = some (.ok value, between) →
      (next value).Makes library between (later value between)) :
    (mapping >>= next).Makes library session fun entry ↦ made entry ∨
      ∃ value between, mapping session = some (.ok value, between) ∧ later value between entry := by
  intro result session' hrun
  obtain ⟨value, between, hfirst, hsecond⟩ | ⟨failure, hfirst, -⟩ := bind_eq_some.1 hrun
  · obtain ⟨calls, hregistry, hcalls⟩ := h _ _ hfirst
    obtain ⟨others, hregistry', hothers⟩ := hnext value between hfirst _ _ hsecond
    refine ⟨calls ++ others, ?_, fun entry ↦ ?_⟩
    · rw [hregistry', hregistry, claimAll, claimAll, claimAll, List.foldl_append]
    · rw [List.mem_append, hcalls, hothers]
      refine or_congr_right ⟨fun hlater ↦ ⟨value, between, hfirst, hlater⟩, ?_⟩
      rintro ⟨value', between', hfirst', hlater⟩
      cases hfirst.symm.trans hfirst'
      exact hlater
  · obtain ⟨calls, hregistry, hcalls⟩ := h _ _ hfirst
    refine ⟨calls, hregistry, fun entry ↦ (hcalls entry).trans (or_iff_left ?_).symm⟩
    rintro ⟨value, between, hfirst', -⟩
    cases hfirst.symm.trans hfirst'

/-- After the mapping nothing is claimed any more. -/
theorem Makes.bind_none {mapping : Mapping α} {next : α → Mapping β}
    (h : mapping.Makes library session made)
    (hnext : ∀ value between, (next value).Makes library between fun _ ↦ False) :
    (mapping >>= next).Makes library session made :=
  (h.bind fun value between _ ↦ hnext value between).congr fun _ _ ↦
    or_iff_left fun ⟨_, _, _, hfalse⟩ ↦ hfalse

theorem makes_ofExcept_bind {result : Except Failure α} {next : α → Mapping β}
    {later : α → Document × Claim → Prop}
    (hnext : ∀ value, result = .ok value → (next value).Makes library session (later value)) :
    (ofExcept result >>= next).Makes library session fun entry ↦
      ∃ value, result = .ok value ∧ later value entry := by
  cases result with
  | ok value =>
    refine Makes.congr (hnext value rfl) fun _ entry ↦ ⟨fun h ↦ ⟨value, rfl, h⟩, ?_⟩
    rintro ⟨_, ⟨⟩, h⟩
    exact h
  | error failure =>
    refine (makes_fail failure).congr fun _ entry ↦ ⟨False.elim, ?_⟩
    rintro ⟨_, ⟨⟩, -⟩

theorem Makes.attempt {mapping : Mapping α} (h : mapping.Makes library session made) :
    (attempt mapping).Makes library session made := by
  intro result session' hrun
  rw [run_attempt] at hrun
  obtain ⟨⟨found, last⟩, hfound, heq⟩ := Option.map_eq_some_iff.1 hrun
  cases heq
  exact h _ _ hfound

theorem Makes.following {body : Mapping α} {key path : String}
    (h : key ∉ session.chain → body.Makes library (session.push key) made) :
    (following key path body).Makes library session fun entry ↦
      key ∉ session.chain ∧ made entry := by
  intro result session' hrun
  by_cases hkey : key ∈ session.chain
  · rw [run_following, if_pos hkey] at hrun
    cases hrun
    exact ⟨[], rfl, fun entry ↦ by simp [hkey]⟩
  · obtain ⟨last, hbody, rfl⟩ := following_eq_some hkey hrun
    obtain ⟨calls, hregistry, hcalls⟩ := h hkey _ _ hbody
    exact ⟨calls, hregistry, fun entry ↦ (hcalls entry).trans (and_iff_right hkey).symm⟩

/-- A list that is gone through in order, where each element makes its own claims. -/
theorem makes_foldlM {step : β → α → Mapping β} {each : α → Session → Document × Claim → Prop}
    {xs : List α} {start : β}
    (h : ∀ before x after, xs = before ++ x :: after → ∀ soFar between,
      before.foldlM step start session = some (.ok soFar, between) →
        (step soFar x).Makes library between (each x between)) :
    (xs.foldlM step start).Makes library session fun entry ↦ ∃ before x after soFar between,
      xs = before ++ x :: after ∧ before.foldlM step start session = some (.ok soFar, between) ∧
        each x between entry := by
  induction xs generalizing start session with
  | nil =>
    refine (makes_pure start).congr fun _ entry ↦ ⟨False.elim, ?_⟩
    rintro ⟨before, x, after, soFar, between, heq, -⟩
    simp at heq
  | cons first rest ih =>
    rw [List.foldlM_cons]
    have hfirst := h [] first rest rfl start session rfl
    have hrest := hfirst.bind fun soFar between hrun ↦
      ih fun before x after heq soFar' between' hbefore ↦ by
        refine h (first :: before) x after (by rw [heq]; rfl) soFar' between' ?_
        rw [List.foldlM_cons, run_bind_ok hrun]
        exact hbefore
    refine hrest.congr fun _ entry ↦ ⟨?_, ?_⟩
    · rintro (hmade |
        ⟨soFar, between, hrun, before, x, after, soFar', between', rfl, hbefore, hmade⟩)
      · exact ⟨[], first, rest, start, session, rfl, rfl, hmade⟩
      · refine ⟨first :: before, x, after, soFar', between', rfl, ?_, hmade⟩
        rw [List.foldlM_cons, run_bind_ok hrun]
        exact hbefore
    · rintro ⟨before, x, after, soFar, between, heq, hbefore, hmade⟩
      cases before with
      | nil =>
        cases heq
        cases hbefore
        exact .inl hmade
      | cons head before =>
        obtain ⟨rfl, rfl⟩ := List.cons.inj heq
        rw [List.foldlM_cons] at hbefore
        obtain ⟨found, mid, hfound, hothers⟩ := bind_eq_ok.1 hbefore
        exact .inr ⟨found, mid, hfound, before, x, after, soFar, between, rfl, hothers, hmade⟩

end Mapping

open Mapping

/-! ## Claims of calls -/

/-- What a call claims itself. An array of what it refers to is named after the elements. -/
inductive Call.Claims (cx : Context) (call : Call) : Claim → Prop
  | enumeration {values : List String} {label : String}
      (hkind : call.node.kind = .enumeration values)
      (hlabel : call.request.label call.node = .ok label) :
      Claims cx call ⟨call.request.path, .enumeration, Names.nested call.request.scope label⟩
  | object {schema : ObjectSchema} {label : String} (hkind : call.node.kind = .object schema)
      (hlabel : call.request.label call.node = .ok label)
      (hproperties : schema.hasProperties = true) :
      Claims cx call ⟨call.request.path, .object, Names.nested call.request.scope label⟩
  | map {schema : ObjectSchema} {label : String} (hkind : call.node.kind = .object schema)
      (hlabel : call.request.label call.node = .ok label) (hplain : schema.hasProperties = false)
      (hadditional : schema.additional.isSome = true) :
      Claims cx call ⟨call.request.path, .map, Names.nested call.request.scope label⟩
  | array {items : Items} {item : Node} {label : String} {element : NativeType}
      {session' : Session} (hkind : call.node.kind = .array items)
      (hlabel : call.request.label call.node = .ok label)
      (hitem : items.element call.request.path = .ok item)
      (helement : Native.Ends cx call.document item (call.request.element item label) call.session
        (.ok element) session') :
      Claims cx call ⟨call.request.path, .array, Names.nested call.request.scope
        (if item.isReference then element.label else label)⟩

/-- The kind has neither a type that is declared nor anything inside that is mapped. -/
def Kind.isLeaf : Kind → Bool
  | .reference _ => false
  | .enumeration _ => false
  | .object _ => false
  | .array _ => false
  | .allOf _ => false
  | _ => true

theorem Kind.isLeaf_of_eq {node : Node} {kind : Kind} (hkind : node.kind = kind)
    (h : kind.isLeaf = false) : node.kind.isLeaf = false :=
  hkind ▸ h

theorem Call.Claims.isLeaf {cx : Context} {call : Call} {claim : Claim} (h : call.Claims cx claim) :
    call.node.kind.isLeaf = false := by
  cases h with
  | enumeration hkind => exact Kind.isLeaf_of_eq hkind rfl
  | object hkind => exact Kind.isLeaf_of_eq hkind rfl
  | map hkind => exact Kind.isLeaf_of_eq hkind rfl
  | array hkind => exact Kind.isLeaf_of_eq hkind rfl

theorem Asks.isLeaf {library : Library} {walk : Walk} {call call' : Call}
    (h : Asks library walk call call') : call.node.kind.isLeaf = false := by
  cases h with
  | target hkind => exact Kind.isLeaf_of_eq hkind rfl
  | element hkind => exact Kind.isLeaf_of_eq hkind rfl
  | value hkind => exact Kind.isLeaf_of_eq hkind rfl
  | property hkind => exact Kind.isLeaf_of_eq hkind rfl
  | propertyElement hkind => exact Kind.isLeaf_of_eq hkind rfl
  | merged hkind => exact Kind.isLeaf_of_eq hkind rfl

namespace Native

variable {cx : Context} {call : Call} {entry : Document × Claim} {document : Document} {node : Node}
  {request : Request} {session : Session} {label : String} {budget : Nat}

/-- The claim is made for the document by some call in the mapping that the first call starts. -/
def Claimed (cx : Context) (start : Call) (entry : Document × Claim) : Prop :=
  ∃ call, Relation.ReflTransGen (Asks cx.library (walk cx)) start call ∧
    call.document = entry.1 ∧ call.Claims cx entry.2

theorem claimed_iff : Claimed cx call entry ↔
    (call.document = entry.1 ∧ call.Claims cx entry.2) ∨
      ∃ call', Asks cx.library (walk cx) call call' ∧ Claimed cx call' entry := by
  constructor
  · rintro ⟨last, hleads, hclaims⟩
    obtain rfl | ⟨next, hasks, hnext⟩ := hleads.cases_head
    · exact .inl hclaims
    · exact .inr ⟨next, hasks, last, hnext, hclaims⟩
  · rintro (hclaims | ⟨next, hasks, last, hnext, hclaims⟩)
    · exact ⟨call, .refl, hclaims⟩
    · exact ⟨last, .head hasks hnext, hclaims⟩

theorem Request.makes_claim_bind {α : Type} {library : Library} {kind : SymbolKind}
    {next : String → Mapping α} {later : String → Session → Document × Claim → Prop}
    (h : ∀ stem session', request.claim library document kind label session =
      some (.ok stem, session') → (next stem).Makes library session' (later stem session')) :
    (request.claim library document kind label >>= next).Makes library session fun entry ↦
      entry = (document, ⟨request.path, kind, Names.nested request.scope label⟩) ∨
        ∃ stem session', request.claim library document kind label session =
          some (.ok stem, session') ∧ later stem session' entry :=
  (makes_claim document request.path kind (Names.nested request.scope label)).bind h

theorem makes_addHandle (output : Output) (element : NativeType) (handle path : String)
    (groups : List Code.AccessorGroup) (type : Output → NativeType) :
    (Mapping.ofExcept (NativeType.absorb output element path) >>= fun output ↦
      Mapping.ofExcept (addHandle output handle groups path) >>= fun output ↦
        (pure (type output) : Mapping NativeType)).Makes cx.library session fun _ ↦ False :=
  (makes_ofExcept _).bind_none fun _ _ ↦ (makes_ofExcept _).bind_none fun _ _ ↦ makes_pure _

variable (ih : ∀ call : Call,
  (map cx budget call.document call.node call.request).Makes cx.library call.session
    (Claimed cx call))
include ih

theorem makes_array {items : Items} :
    (array cx (map cx budget) document items label request).Makes cx.library session fun entry ↦
      ∃ item, items.element request.path = .ok item ∧
        (Claimed cx ⟨document, item, request.element item label, session⟩ entry ∨
          ∃ element between, map cx budget document item (request.element item label) session =
            some (.ok element, between) ∧
              entry = (document, ⟨request.path, .array, Names.nested request.scope
                (if item.isReference then element.label else label)⟩)) :=
  makes_ofExcept_bind fun item _ ↦ (ih ⟨document, item, request.element item label, session⟩).bind
    fun _ _ _ ↦ (makes_claim _ _ _ _).bind_none fun _ _ ↦ makes_addHandle _ _ _ _ _ _

theorem makes_dictionary {additional : Node} :
    (dictionary cx (map cx budget) document additional label request).Makes cx.library session
      fun entry ↦
        entry = (document, ⟨request.path, .map, Names.nested request.scope label⟩) ∨
          ∃ stem session', request.claim cx.library document .map label session =
            some (.ok stem, session') ∧
              Claimed cx ⟨document, additional, request.mapValue stem, session'⟩ entry :=
  Request.makes_claim_bind fun stem session' _ ↦
    (ih ⟨document, additional, request.mapValue stem, session'⟩).bind_none fun _ _ ↦
      makes_addHandle _ _ _ _ _ _

/-- What is claimed for a property, or for the elements of an array that is declared in place. -/
def ClaimedIn (cx : Context) (document : Document) (request : Request) (child : String × Node)
    (session : Session) (entry : Document × Claim) : Prop :=
  ((∀ items, child.2.kind ≠ .array items) ∧
      Claimed cx ⟨document, child.2, request, session⟩ entry) ∨
    ∃ items item, child.2.kind = .array items ∧ items.element request.path = .ok item ∧
      Claimed cx ⟨document, item, request.element item child.1, session⟩ entry

theorem makes_property {parent : Parent} {isOptional : Bool} (child : String × Node) :
    (property cx (map cx budget) document parent isOptional child.1 child.2 request).Makes
      cx.library session (ClaimedIn cx document request child session) := by
  obtain ⟨name, title, description, kind⟩ := child
  by_cases harray : ∃ items, kind = .array items
  · obtain ⟨items, rfl⟩ := harray
    have hitems : (property cx (map cx budget) document parent isOptional name
        (.mk title description (.array items)) request).Makes cx.library session fun entry ↦
          ∃ item, items.element request.path = .ok item ∧
            Claimed cx ⟨document, item, request.element item name, session⟩ entry :=
      makes_ofExcept_bind fun item _ ↦
        (ih ⟨document, item, request.element item name, session⟩).bind_none fun _ _ ↦ makes_pure _
    refine hitems.congr fun _ entry ↦ ⟨fun ⟨item, hitem, h⟩ ↦ .inr ⟨items, item, rfl, hitem, h⟩, ?_⟩
    rintro (⟨hwhole, -⟩ | ⟨_, item, ⟨⟩, hitem, h⟩)
    · exact absurd rfl (hwhole items)
    · exact ⟨item, hitem, h⟩
  · have hwhole := not_exists.1 harray
    have hvalue : (property cx (map cx budget) document parent isOptional name
        (.mk title description kind) request).Makes cx.library session
          (Claimed cx ⟨document, .mk title description kind, request, session⟩) := by
      cases kind with
      | array items => exact absurd rfl (hwhole items)
      | _ => exact (ih ⟨document, _, request, session⟩).bind_none fun _ _ ↦ makes_pure _
    refine hvalue.congr fun _ entry ↦ ⟨fun h ↦ .inl ⟨hwhole, h⟩, ?_⟩
    rintro (⟨-, h⟩ | ⟨items, item, hkind, -⟩)
    · exact h
    · exact absurd hkind (hwhole items)

theorem makes_addProperty {parent : Parent} {schema : ObjectSchema} {soFar : Gathered}
    (child : String × Node) :
    (addProperty cx (map cx budget) document parent schema request soFar child).Makes cx.library
      session (ClaimedIn cx document (request.property parent.stem child.1) child session) := by
  refine (makes_property ih child).attempt.bind_none fun mapped between ↦ ?_
  cases mapped with
  | ok value => exact (makes_ofExcept _).bind_none fun _ _ ↦ makes_pure _
  | error failure =>
    dsimp only
    split
    · exact makes_warn.bind_none fun _ _ ↦ makes_pure _
    · exact makes_fail _

theorem makes_object {schema : ObjectSchema} :
    (Native.object cx (map cx budget) document schema label request).Makes cx.library session
      fun entry ↦
        entry = (document, ⟨request.path, .object, Names.nested request.scope label⟩) ∨
          ∃ stem between, request.claim cx.library document .object label session =
            some (.ok stem, between) ∧ ∃ before child after soFar last,
              schema.members = before ++ child :: after ∧
                gather cx (map cx budget) document schema request stem before between =
                  some (.ok soFar, last) ∧
                ClaimedIn cx document (request.property stem child.1) child last entry := by
  refine Request.makes_claim_bind fun stem between _ ↦ ?_
  have hgather : (gather cx (map cx budget) document schema request stem schema.members).Makes
      cx.library between _ :=
    makes_foldlM fun _ child _ _ soFar last _ ↦ makes_addProperty ih child
  exact hgather.bind_none fun _ _ ↦ (makes_ofExcept _).bind_none fun _ _ ↦ makes_pure _

theorem makes_reference {reference : String} :
    (Native.reference cx (map cx budget) document reference request).Makes cx.library session
      fun entry ↦ ∃ target, cx.library.resolve document reference request.path = .ok target ∧
        target.key ∉ session.chain ∧
          Claimed cx ⟨target.owner, target.node, .ofTarget target, session.push target.key⟩ entry :=
  makes_ofExcept_bind fun target _ ↦ (Makes.following fun _ ↦
    ih ⟨target.owner, target.node, .ofTarget target, session.push target.key⟩).bind_none
      fun _ _ ↦ makes_pure _

omit ih

theorem makes_merge {members : List Node} {path : String} :
    (mergeAllOf cx.library budget document node members path).Makes cx.library session
      fun _ ↦ False :=
  makes_none fun _ _ hrun ↦
    congrArg Session.registry ((mergeAllOf_static _ _ _ _ _ _).run_of_chain_eq hrun rfl).1

/-! ## What kinds of schemas claim -/

section Kinds

variable {owner : Document} {claim : Claim}

theorem claimed_reference_iff {reference : String} (hkind : node.kind = .reference reference) :
    Claimed cx ⟨document, node, request, session⟩ (owner, claim) ↔ ∃ target,
      cx.library.resolve document reference request.path = .ok target ∧
        target.key ∉ session.chain ∧
          Claimed cx ⟨target.owner, target.node, .ofTarget target, session.push target.key⟩
            (owner, claim) := by
  rw [claimed_iff]
  constructor
  · rintro (⟨-, hclaims⟩ | ⟨call', hasks, hclaimed⟩)
    · cases hclaims <;> cases hkind.symm.trans ‹_›
    · cases hasks <;> cases hkind.symm.trans ‹_›
      exact ⟨_, ‹_›, ‹_›, hclaimed⟩
  · rintro ⟨target, htarget, hkey, hclaimed⟩
    exact .inr ⟨_, .target hkind htarget hkey, hclaimed⟩

theorem claimed_array_iff {items : Items} (hkind : node.kind = .array items)
    (hlabel : request.label node = .ok label) :
    Claimed cx ⟨document, node, request, session⟩ (owner, claim) ↔ ∃ item,
      items.element request.path = .ok item ∧
        (Claimed cx ⟨document, item, request.element item label, session⟩ (owner, claim) ∨
          ∃ element between, Ends cx document item (request.element item label) session
            (.ok element) between ∧
              (owner, claim) = (document, ⟨request.path, .array, Names.nested request.scope
                (if item.isReference then element.label else label)⟩)) := by
  rw [claimed_iff]
  constructor
  · rintro (⟨rfl, hclaims⟩ | ⟨call', hasks, hclaimed⟩)
    · cases hclaims with
      | array hkind' hlabel' hitem helement =>
        cases hkind.symm.trans hkind'
        cases hlabel.symm.trans hlabel'
        exact ⟨_, hitem, .inr ⟨_, _, helement, rfl⟩⟩
      | _ => cases hkind.symm.trans ‹_›
    · cases hasks with
      | element hkind' hlabel' hitem =>
        cases hkind.symm.trans hkind'
        cases hlabel.symm.trans hlabel'
        exact ⟨_, hitem, .inl hclaimed⟩
      | _ => cases hkind.symm.trans ‹_›
  · rintro ⟨item, hitem, hclaimed | ⟨element, between, helement, heq⟩⟩
    · exact .inr ⟨_, .element hkind hlabel hitem, hclaimed⟩
    · cases heq
      exact .inl ⟨rfl, .array hkind hlabel hitem helement⟩

theorem claimed_map_iff {schema : ObjectSchema} {additional : Node}
    (hkind : node.kind = .object schema) (hlabel : request.label node = .ok label)
    (hplain : schema.hasProperties = false) (hadditional : schema.additional = some additional) :
    Claimed cx ⟨document, node, request, session⟩ (owner, claim) ↔
      (owner, claim) = (document, ⟨request.path, .map, Names.nested request.scope label⟩) ∨
        ∃ stem session', request.claim cx.library document .map label session =
          some (.ok stem, session') ∧
            Claimed cx ⟨document, additional, request.mapValue stem, session'⟩ (owner, claim) := by
  rw [claimed_iff]
  constructor
  · rintro (⟨rfl, hclaims⟩ | ⟨call', hasks, hclaimed⟩)
    · cases hclaims with
      | map hkind' hlabel' =>
        cases hlabel.symm.trans hlabel'
        exact .inl rfl
      | object hkind' hlabel' hproperties =>
        cases hkind.symm.trans hkind'
        cases hplain.symm.trans hproperties
      | _ => cases hkind.symm.trans ‹_›
    · cases hasks with
      | value hkind' hlabel' hplain' hadditional' hclaim =>
        cases hkind.symm.trans hkind'
        cases hlabel.symm.trans hlabel'
        cases hadditional.symm.trans hadditional'
        exact .inr ⟨_, _, hclaim, hclaimed⟩
      | property hkind' hlabel' hclaim hmembers =>
        cases hkind.symm.trans hkind'
        cases hplain.symm.trans (ObjectSchema.hasProperties_of_members hmembers)
      | propertyElement hkind' hlabel' hclaim hmembers =>
        cases hkind.symm.trans hkind'
        cases hplain.symm.trans (ObjectSchema.hasProperties_of_members hmembers)
      | _ => cases hkind.symm.trans ‹_›
  · rintro (heq | ⟨stem, session', hclaim, hclaimed⟩)
    · cases heq
      exact .inl ⟨rfl, .map hkind hlabel hplain (by rw [hadditional]; rfl)⟩
    · exact .inr ⟨_, .value hkind hlabel hplain hadditional hclaim, hclaimed⟩

theorem claimed_object_iff {schema : ObjectSchema} (hkind : node.kind = .object schema)
    (hlabel : request.label node = .ok label) (hproperties : schema.hasProperties = true) :
    Claimed cx ⟨document, node, request, session⟩ (owner, claim) ↔
      (owner, claim) = (document, ⟨request.path, .object, Names.nested request.scope label⟩) ∨
        ∃ stem between, request.claim cx.library document .object label session =
          some (.ok stem, between) ∧ ∃ before child after last,
            schema.members = before ++ child :: after ∧
              (walk cx).passes document schema request stem before between last ∧
              ClaimedIn cx document (request.property stem child.1) child last (owner, claim) := by
  rw [claimed_iff]
  constructor
  · rintro (⟨rfl, hclaims⟩ | ⟨call', hasks, hclaimed⟩)
    · cases hclaims with
      | object hkind' hlabel' =>
        cases hlabel.symm.trans hlabel'
        exact .inl rfl
      | map hkind' hlabel' hplain =>
        cases hkind.symm.trans hkind'
        cases hplain.symm.trans hproperties
      | _ => cases hkind.symm.trans ‹_›
    · cases hasks with
      | value hkind' hlabel' hplain =>
        cases hkind.symm.trans hkind'
        cases hplain.symm.trans hproperties
      | property hkind' hlabel' hclaim hmembers hbefore hwhole =>
        cases hkind.symm.trans hkind'
        cases hlabel.symm.trans hlabel'
        exact .inr ⟨_, _, hclaim, _, _, _, _, hmembers, hbefore, .inl ⟨hwhole rfl, hclaimed⟩⟩
      | propertyElement hkind' hlabel' hclaim hmembers hbefore _ hchild hitem =>
        cases hkind.symm.trans hkind'
        cases hlabel.symm.trans hlabel'
        exact .inr ⟨_, _, hclaim, _, _, _, _, hmembers, hbefore,
          .inr ⟨_, _, hchild, hitem, hclaimed⟩⟩
      | _ => cases hkind.symm.trans ‹_›
  · rintro (heq | ⟨stem, between, hclaim, before, ⟨name, child⟩, after, last, hmembers, hbefore,
      ⟨hwhole, hclaimed⟩ | ⟨items, item, hchild, hitem, hclaimed⟩⟩)
    · cases heq
      exact .inl ⟨rfl, .object hkind hlabel hproperties⟩
    · exact .inr ⟨_, .property hkind hlabel hclaim hmembers hbefore fun _ ↦ hwhole, hclaimed⟩
    · exact .inr ⟨_, .propertyElement hkind hlabel hclaim hmembers hbefore rfl hchild hitem,
        hclaimed⟩

theorem claimed_allOf_iff {members : List Node} (hkind : node.kind = .allOf members)
    (hlabel : request.label node = .ok label) :
    Claimed cx ⟨document, node, request, session⟩ (owner, claim) ↔ ∃ budget merged session',
      mergeAllOf cx.library budget document node members request.path session =
        some (.ok merged, session') ∧
          Claimed cx ⟨document, .mk (node.title.or (some label)) merged.description merged.kind,
            request, session'⟩ (owner, claim) := by
  rw [claimed_iff]
  constructor
  · rintro (⟨-, hclaims⟩ | ⟨call', hasks, hclaimed⟩)
    · cases hclaims <;> cases hkind.symm.trans ‹_›
    · cases hasks with
      | merged hkind' hlabel' hmerge =>
        cases hkind.symm.trans hkind'
        cases hlabel.symm.trans hlabel'
        exact ⟨_, _, _, hmerge, hclaimed⟩
      | _ => cases hkind.symm.trans ‹_›
  · rintro ⟨budget, merged, session', hmerge, hclaimed⟩
    exact .inr ⟨_, .merged hkind hlabel hmerge, hclaimed⟩

end Kinds

/-- A schema that has neither a type to be declared nor anything to be mapped for it. -/
theorem not_claimed (hclaims : ∀ claim, ¬Call.Claims cx call claim)
    (hasks : ∀ call', ¬Asks cx.library (walk cx) call call') : ¬Claimed cx call entry := by
  rw [claimed_iff]
  rintro (⟨-, h⟩ | ⟨call', h, -⟩)
  · exact hclaims _ h
  · exact hasks _ h

theorem not_claimed_of_unlabelled (hkind : ∀ reference, node.kind ≠ .reference reference)
    (hlabel : ∀ label, request.label node ≠ .ok label) :
    ¬Claimed cx ⟨document, node, request, session⟩ entry := by
  refine not_claimed (fun claim h ↦ ?_) fun call' h ↦ ?_
  · cases h <;> exact hlabel _ ‹_›
  · cases h with
    | target href => exact hkind _ href
    | _ => exact hlabel _ ‹_›

section Map

variable (ih : ∀ call : Call,
  (map cx budget call.document call.node call.request).Makes cx.library call.session
    (Claimed cx call))
include ih

theorem makes_map_array {items : Items} (hkind : node.kind = .array items)
    (hlabel : request.label node = .ok label) :
    (map cx (budget + 1) document node request).Makes cx.library session
      (Claimed cx ⟨document, node, request, session⟩) := by
  refine ((makes_array ih).of_eq (run_map_array hkind hlabel)).congr fun hhalts entry ↦ ?_
  refine Iff.trans ?_ (claimed_array_iff hkind hlabel).symm
  refine exists_congr fun item ↦ and_congr_right fun hitem ↦ or_congr_right ?_
  refine exists₂_congr fun element between ↦ and_congr_left fun _ ↦ ⟨fun hrun ↦ ⟨budget, hrun⟩, ?_⟩
  intro hends
  have hanswers : Answers cx (budget + 1) ⟨document, node, request, session⟩ := hhalts
  obtain ⟨result, last, hrun⟩ := halts_iff.1 (hanswers.of_asks (.element hkind hlabel hitem))
  obtain ⟨rfl, rfl⟩ := Ends.unique ⟨budget, hrun⟩ hends
  exact hrun

theorem makes_map_object {schema : ObjectSchema} (hkind : node.kind = .object schema)
    (hlabel : request.label node = .ok label) (hproperties : schema.hasProperties = true) :
    (map cx (budget + 1) document node request).Makes cx.library session
      (Claimed cx ⟨document, node, request, session⟩) := by
  have hrun : map cx (budget + 1) document node request session =
      Native.object cx (map cx budget) document schema label request session := by
    rw [run_map_object hkind hlabel, objectLike, if_pos hproperties]
  refine ((makes_object ih).of_eq hrun).congr fun hhalts entry ↦ ?_
  refine Iff.trans ?_ (claimed_object_iff hkind hlabel hproperties).symm
  refine or_congr_right (exists₂_congr fun stem between ↦ and_congr_right fun hclaim ↦ ?_)
  refine exists₃_congr fun before child after ↦ ⟨?_, ?_⟩
  · rintro ⟨soFar, last, hmembers, hbefore, hclaimed⟩
    exact ⟨last, hmembers, ⟨budget, soFar, hbefore⟩, hclaimed⟩
  · rintro ⟨last, hmembers, hbefore, hclaimed⟩
    have hanswers : Answers cx (budget + 1) ⟨document, node, request, session⟩ := hhalts
    have hgather := hanswers.gather hkind hlabel hclaim hmembers
    obtain ⟨soFar, hsoFar⟩ := exists_gather_of_passes hgather hbefore
    exact ⟨soFar, last, hmembers, hsoFar, hclaimed⟩

theorem makes_map_plain {schema : ObjectSchema} (hkind : node.kind = .object schema)
    (hlabel : request.label node = .ok label) (hplain : schema.hasProperties = false) :
    (map cx (budget + 1) document node request).Makes cx.library session
      (Claimed cx ⟨document, node, request, session⟩) := by
  cases hadditional : schema.additional with
  | some additional =>
    have hrun : map cx (budget + 1) document node request session =
        dictionary cx (map cx budget) document additional label request session := by
      rw [run_map_object hkind hlabel, objectLike, if_neg (Bool.eq_false_iff.1 hplain), hadditional]
    exact ((makes_dictionary ih).of_eq hrun).congr fun _ entry ↦
      (claimed_map_iff hkind hlabel hplain hadditional).symm
  | none =>
    have hnone : (objectLike cx (map cx budget) document schema label request).Makes cx.library
        session fun _ ↦ False := by
      unfold objectLike
      rw [if_neg (Bool.eq_false_iff.1 hplain), hadditional]
      dsimp only
      split
      · exact makes_fail _
      · exact makes_pure _
    refine (hnone.of_eq (run_map_object hkind hlabel)).congr fun _ entry ↦ iff_of_false id ?_
    refine not_claimed (fun claim hclaims ↦ ?_) fun call' hasks ↦ ?_
    · cases hclaims with
      | object hkind' _ hproperties =>
        cases hkind.symm.trans hkind'
        cases hplain.symm.trans hproperties
      | map hkind' _ _ hsome =>
        cases hkind.symm.trans hkind'
        rw [hadditional] at hsome
        cases hsome
      | _ => cases hkind.symm.trans ‹_›
    · cases hasks with
      | value hkind' _ _ hsome =>
        cases hkind.symm.trans hkind'
        cases hadditional.symm.trans hsome
      | property hkind' _ _ hmembers =>
        cases hkind.symm.trans hkind'
        cases hplain.symm.trans (ObjectSchema.hasProperties_of_members hmembers)
      | propertyElement hkind' _ _ hmembers =>
        cases hkind.symm.trans hkind'
        cases hplain.symm.trans (ObjectSchema.hasProperties_of_members hmembers)
      | _ => cases hkind.symm.trans ‹_›

theorem makes_map_allOf {members : List Node} (hkind : node.kind = .allOf members)
    (hlabel : request.label node = .ok label) :
    (map cx (budget + 1) document node request).Makes cx.library session
      (Claimed cx ⟨document, node, request, session⟩) := by
  have hmerge := makes_merge.bind fun merged between
      (_ : mergeAllOf cx.library budget document node members request.path session =
        some (.ok merged, between)) ↦
    ih ⟨document, .mk (node.title.or (some label)) merged.description merged.kind, request, between⟩
  refine (hmerge.of_eq (run_map_allOf hkind hlabel)).congr fun hhalts entry ↦ ?_
  refine Iff.trans ?_ (claimed_allOf_iff hkind hlabel).symm
  rw [false_or]
  constructor
  · rintro ⟨merged, between, hrun, hclaimed⟩
    exact ⟨budget, merged, between, hrun, hclaimed⟩
  · rintro ⟨budget', merged, between, hrun, hclaimed⟩
    have hanswers : Answers cx (budget + 1) ⟨document, node, request, session⟩ := hhalts
    obtain ⟨result, last, hfound⟩ := halts_iff.1 (hanswers.merge hkind hlabel)
    cases run_unique (fun hle ↦ mergeAllOf_refines cx.library hle document node members
      request.path) hfound hrun
    exact ⟨merged, between, hfound, hclaimed⟩

omit ih

theorem makes_map_enumeration {values : List String} (hkind : node.kind = .enumeration values)
    (hlabel : request.label node = .ok label) :
    (map cx (budget + 1) document node request).Makes cx.library session
      (Claimed cx ⟨document, node, request, session⟩) := by
  have hmakes : (enumeration cx document node values label request).Makes cx.library session
      fun entry ↦ entry =
        (document, ⟨request.path, .enumeration, Names.nested request.scope label⟩) :=
    (makes_claim _ _ _ _).bind_none fun _ _ ↦ makes_pure _
  refine (hmakes.of_eq (run_map_enumeration hkind hlabel)).congr fun _ entry ↦ ?_
  obtain ⟨owner, claim⟩ := entry
  rw [claimed_iff]
  constructor
  · intro heq
    cases heq
    exact .inl ⟨rfl, .enumeration hkind hlabel⟩
  · rintro (⟨rfl, hclaims⟩ | ⟨call', hasks, -⟩)
    · cases hclaims with
      | enumeration _ hlabel' =>
        cases hlabel.symm.trans hlabel'
        rfl
      | _ => cases hkind.symm.trans ‹_›
    · cases hasks <;> cases hkind.symm.trans ‹_›

end Map

theorem makes_map_leaf {title description : Option String} {kind : Kind} (hleaf : kind.isLeaf) :
    (map cx (budget + 1) document (.mk title description kind) request).Makes cx.library session
      (Claimed cx ⟨document, .mk title description kind, request, session⟩) := by
  have hclaimed : ∀ entry,
      ¬Claimed cx ⟨document, .mk title description kind, request, session⟩ entry := fun entry ↦
    not_claimed (fun claim hclaims ↦ by cases hleaf.symm.trans hclaims.isLeaf)
      fun call' hasks ↦ by cases hleaf.symm.trans hasks.isLeaf
  have hnone : (map cx (budget + 1) document (.mk title description kind) request).Makes cx.library
      session fun _ ↦ False := by
    cases kind with
    | constant value minimum =>
      refine (makes_ofExcept _).bind_none fun label between ↦ ?_
      change (constant cx value minimum label request.path).Makes _ _ _
      unfold constant
      split
      · exact makes_pure _
      · exact makes_fail _
    | primitive type minimum => exact (makes_ofExcept _).bind_none fun _ _ ↦ makes_pure _
    | oneOf members => exact (makes_ofExcept _).bind_none fun _ _ ↦ makes_fail _
    | anyOf members => exact (makes_ofExcept _).bind_none fun _ _ ↦ makes_fail _
    | unconstrained => exact (makes_ofExcept _).bind_none fun _ _ ↦ makes_fail _
    | _ => cases hleaf
  exact hnone.congr fun _ entry ↦ iff_of_false id (hclaimed entry)

/-- A mapping makes the claims of the calls that are made in it. -/
theorem makes_map (budget : Nat) (call : Call) :
    (map cx budget call.document call.node call.request).Makes cx.library call.session
      (Claimed cx call) := by
  induction budget generalizing call with
  | zero => exact fun _ _ hrun ↦ nomatch hrun
  | succ budget ih =>
    obtain ⟨document, ⟨title, description, kind⟩, request, session⟩ := call
    by_cases href : ∃ reference, kind = .reference reference
    · obtain ⟨reference, rfl⟩ := href
      exact ((makes_reference ih).of_eq (run_map_reference rfl)).congr fun _ _ ↦
        (claimed_reference_iff rfl).symm
    have hplain : ∀ reference, (Node.mk title description kind).kind ≠ .reference reference :=
      not_exists.1 href
    cases hlabel : request.label (.mk title description kind) with
    | error failure =>
      have hnone : ∀ entry,
          ¬Claimed cx ⟨document, .mk title description kind, request, session⟩ entry := fun entry ↦
        not_claimed_of_unlabelled hplain fun label h ↦ nomatch hlabel.symm.trans h
      exact ((makes_fail failure).of_eq (run_map_unlabelled hplain hlabel)).congr fun _ entry ↦
        iff_of_false id (hnone entry)
    | ok label =>
      cases kind with
      | reference reference => exact absurd ⟨reference, rfl⟩ href
      | array items => exact makes_map_array ih rfl hlabel
      | object schema =>
        cases hproperties : schema.hasProperties with
        | true => exact makes_map_object ih rfl hlabel hproperties
        | false => exact makes_map_plain ih rfl hlabel hproperties
      | allOf members => exact makes_map_allOf ih rfl hlabel
      | enumeration values => exact makes_map_enumeration rfl hlabel
      | _ => exact makes_map_leaf rfl

end Native

end SchemaBindings
