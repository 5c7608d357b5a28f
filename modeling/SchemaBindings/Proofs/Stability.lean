import SchemaBindings.Proofs.Budget
import SchemaBindings.Proofs.Replay
import SchemaBindings.Proofs.Resolution

/-!
# Types are stable over a run

Any number of native and wire mappers share a registry, and each has a chain of references of its
own, which is empty between calls. Whatever calls are made, a call that was answered once is
answered in the same way for ever. References of a document that lead inside the document to one
place therefore come to one type, whenever and by whatever detours they are followed.
-/

namespace SchemaBindings

open Mapping

inductive Side where
  | native
  | wire
  deriving DecidableEq

/-- What a mapper of one of the sides is asked for. -/
structure Query where
  side : Side
  document : Document
  node : Node
  request : Request

inductive Answer where
  | native (result : Except Failure NativeType)
  | wire (result : Except Failure WireType)

namespace Query

/-- The query is answered in a session, and leaves another session behind. -/
inductive Ends (cx : Context) : Query → Session → Answer → Session → Prop
  | native {document : Document} {node : Node} {request : Request} {session session' : Session}
      {result : Except Failure NativeType}
      (h : Native.Ends cx document node request session result session') :
      Ends cx ⟨.native, document, node, request⟩ session (.native result) session'
  | wire {document : Document} {node : Node} {request : Request} {session session' : Session}
      {result : Except Failure WireType}
      (h : Wire.Ends cx document node request session result session') :
      Ends cx ⟨.wire, document, node, request⟩ session (.wire result) session'

variable {cx : Context} {query : Query} {session session' session'' later : Session}
  {answer answer' : Answer}

theorem Ends.unique (h : query.Ends cx session answer session')
    (h' : query.Ends cx session answer' session'') : answer = answer' := by
  cases h with
  | native h =>
    cases h' with
    | native h' => rw [(h.unique h').1]
  | wire h =>
    cases h' with
    | wire h' => rw [(h.unique h').1]

theorem Ends.chain_eq (h : query.Ends cx session answer session') :
    session'.chain = session.chain := by
  cases h with
  | native h =>
    obtain ⟨budget, hrun⟩ := h
    exact (Native.map_claims_any cx budget _ _ _ _ _ _ hrun).1
  | wire h =>
    obtain ⟨budget, hrun⟩ := h
    exact (Wire.map_claims_any cx budget _ _ _ _ _ _ hrun).1

theorem Ends.extends (h : query.Ends cx session answer session') :
    session.registry.Extends session'.registry := by
  cases h with
  | native h =>
    obtain ⟨budget, hrun⟩ := h
    exact (Native.map_claims_any cx budget _ _ _ _ _ _ hrun).2.extends
  | wire h =>
    obtain ⟨budget, hrun⟩ := h
    exact (Wire.map_claims_any cx budget _ _ _ _ _ _ hrun).2.extends

/-- Once the stems are known that an answer was given with, the same answer is given again. -/
theorem Ends.again (h : query.Ends cx session answer session')
    (hchain : later.chain = session.chain) (hextends : session'.registry.Extends later.registry) :
    ∃ later', query.Ends cx later answer later' := by
  cases h with
  | @native document node request _ _ result h =>
    obtain ⟨budget, hrun⟩ := h
    obtain ⟨later', hlater⟩ := (Native.map_replays cx budget document node request.name
      request.scope request.scope request.path).replay hrun hextends (.inl hchain)
    exact ⟨later', .native ⟨budget, hlater⟩⟩
  | @wire document node request _ _ result h =>
    obtain ⟨budget, hrun⟩ := h
    obtain ⟨later', hlater⟩ := (Wire.map_replays cx budget document node request.name
      request.scope request.scope request.path).replay hrun hextends (.inl hchain)
    exact ⟨later', .wire ⟨budget, hlater⟩⟩

end Query

/-! ## Runs of several mappers -/

/-- Mappers of both sides, by their numbers: each has a chain, and all share a registry. -/
structure Fleet where
  chain : Side → Nat → List String
  registry : Registry
  warnings : Nat

namespace Fleet

/-- No mapper is inside a call. -/
def Idle (fleet : Fleet) : Prop := ∀ side mapper, fleet.chain side mapper = []

def session (fleet : Fleet) (side : Side) (mapper : Nat) : Session :=
  ⟨fleet.chain side mapper, fleet.registry, fleet.warnings⟩

/-- The mappers after a call of one of them. -/
def after (fleet : Fleet) (side : Side) (mapper : Nat) (session : Session) : Fleet where
  chain other number :=
    if other = side ∧ number = mapper then session.chain else fleet.chain other number
  registry := session.registry
  warnings := session.warnings

@[simp]
theorem session_after (fleet : Fleet) (side : Side) (mapper : Nat) (session : Session) :
    (fleet.after side mapper session).session side mapper = session := by
  simp [Fleet.session, Fleet.after]

theorem Idle.after {fleet : Fleet} (h : fleet.Idle) (side : Side) (mapper : Nat)
    {session : Session} (hchain : session.chain = []) : (fleet.after side mapper session).Idle := by
  intro other number
  change ite _ _ _ = _
  split
  · exact hchain
  · exact h other number

end Fleet

/-- A run: top-level calls with their answers, in the order in which they are made. -/
inductive Run (cx : Context) (start : Fleet) : List (Query × Answer) → Fleet → Prop
  | start : Run cx start [] start
  | call {history : List (Query × Answer)} {fleet : Fleet} {query : Query} {answer : Answer}
      {mapper : Nat} {session : Session} (h : Run cx start history fleet)
      (hends : query.Ends cx (fleet.session query.side mapper) answer session) :
      Run cx start (history ++ [(query, answer)]) (fleet.after query.side mapper session)

namespace Run

variable {cx : Context} {start fleet : Fleet} {history : List (Query × Answer)}

theorem idle (hstart : start.Idle) (h : Run cx start history fleet) : fleet.Idle := by
  induction h with
  | start => exact hstart
  | call _ hends ih =>
    refine ih.after _ _ ?_
    rw [hends.chain_eq]
    exact ih _ _

/-- Every answer that was given is given again after the run. -/
theorem again (hstart : start.Idle) (h : Run cx start history fleet) {query : Query}
    {answer : Answer} (hmem : (query, answer) ∈ history) {registry : Registry}
    (hextends : fleet.registry.Extends registry) :
    ∃ later, query.Ends cx { registry := registry } answer later := by
  induction h with
  | start => cases hmem
  | @call history fleet last found mapper session hbefore hends ih =>
    obtain hearlier | hlast := List.mem_append.1 hmem
    · exact ih hearlier (hends.extends.trans hextends)
    · cases List.mem_singleton.1 hlast
      have hchain : [] = (fleet.session query.side mapper).chain :=
        (hbefore.idle hstart _ _).symm
      exact hends.again hchain hextends

/-- The same query has the same answer whenever it is asked. -/
theorem answer_unique (hstart : start.Idle) (h : Run cx start history fleet) {query : Query}
    {answer answer' : Answer} (hmem : (query, answer) ∈ history)
    (hmem' : (query, answer') ∈ history) : answer = answer' := by
  obtain ⟨later, hends⟩ := h.again hstart hmem (.refl fleet.registry)
  obtain ⟨later', hends'⟩ := h.again hstart hmem' (.refl fleet.registry)
  exact hends.unique hends'

end Run

/-! ## References to one place -/

/-- A reference leads to a target, directly or by further references, without ever leading out of
the document. -/
inductive Library.LeadsWithin (library : Library) (document : Document) : String → Target → Prop
  | target {reference place : String} {target : Target}
      (h : library.resolve document reference place = .ok target)
      (hinternal : ¬target.isExternal) : LeadsWithin library document reference target
  | hop {reference place next : String} {target last : Target}
      (h : library.resolve document reference place = .ok target)
      (hinternal : ¬target.isExternal) (hkind : target.node.kind = .reference next)
      (hnext : LeadsWithin library document next last) : LeadsWithin library document reference last

theorem Library.LeadsWithin.place? {library : Library} {document : Document} {reference : String}
    {target : Target} (h : library.LeadsWithin document reference target) :
    ∃ last place, library.resolve document last place = .ok target ∧
      ∃ fragment, library.place? document last = some (document, fragment) ∧
        target.owner = document ∧ target.key = document.uri ++ fragment := by
  induction h with
  | @target reference place target h hinternal =>
    have howner := owner_eq_of_not_isExternal h hinternal
    obtain ⟨fragment, -, hplace, -, -, -, -, hkey, -⟩ := resolve_eq_ok h
    rw [howner] at hplace hkey
    exact ⟨reference, place, h, fragment, hplace, howner, hkey⟩
  | hop _ _ _ _ ih => exact ih

/-- What is identified by the same key is the same schema, asked for in the same way. -/
theorem Library.LeadsWithin.eq_of_key {library : Library} {document : Document}
    {reference reference' : String} {target target' : Target}
    (h : library.LeadsWithin document reference target)
    (h' : library.LeadsWithin document reference' target') (hkey : target.key = target'.key) :
    target.node = target'.node ∧ Request.ofTarget target = .ofTarget target' := by
  obtain ⟨last, place, hfound, fragment, hplace, -, hfragment⟩ := h.place?
  obtain ⟨last', place', hfound', fragment', hplace', -, hfragment'⟩ := h'.place?
  rw [hfragment, hfragment', String.append_right_inj] at hkey
  subst hkey
  obtain ⟨-, hnode, htitle, hpath⟩ :=
    Library.resolve_of_place?_eq hfound hfound' (hplace.trans hplace'.symm)
  refine ⟨hnode, ?_⟩
  unfold Request.ofTarget
  rw [htitle, hpath]

namespace Native

variable {cx : Context} {document : Document}

/-- A reference that stays in the document comes to the type of what it leads to. -/
theorem Ends.of_leadsWithin {reference : String} {target : Target}
    (hleads : cx.library.LeadsWithin document reference target) {node : Node} {request : Request}
    {session session' : Session} {type : NativeType} (hkind : node.kind = .reference reference)
    (h : Ends cx document node request session (.ok type) session') :
    ∃ between after, Ends cx document target.node (.ofTarget target) between (.ok type) after ∧
      after.registry = session'.registry := by
  have hstep : ∀ {reference place : String} {target : Target},
      cx.library.resolve document reference place = .ok target → ¬target.isExternal →
      ∀ {node : Node} {request : Request} {session session' : Session},
      node.kind = .reference reference →
      Ends cx document node request session (.ok type) session' →
      ∃ between after, Ends cx document target.node (.ofTarget target) between (.ok type) after ∧
        after.registry = session'.registry := by
    intro reference place target htarget hinternal node request session session' hkind h
    obtain ⟨budget, hrun⟩ := h
    obtain ⟨title, description, kind⟩ := node
    cases hkind
    cases budget with
    | zero => cases hrun
    | succ budget =>
      obtain ⟨found, between, hresolve, hrest⟩ := bind_eq_ok.1 hrun
      obtain ⟨hfound, rfl⟩ := ofExcept_eq_ok.1 hresolve
      rw [Library.resolve_place htarget request.path] at hfound
      cases hfound
      obtain ⟨mapped, last, hfollowing, hpure⟩ := bind_eq_ok.1 hrest
      obtain ⟨after, hbody, rfl⟩ := following_eq_ok hfollowing
      rw [if_neg hinternal] at hpure
      cases hpure
      rw [Library.owner_eq_of_not_isExternal htarget hinternal] at hbody
      exact ⟨_, after, ⟨budget, hbody⟩, rfl⟩
  induction hleads generalizing node request session session' with
  | target htarget hinternal => exact hstep htarget hinternal hkind h
  | hop htarget hinternal hnext _ ih =>
    obtain ⟨between, after, hends, hregistry⟩ := hstep htarget hinternal hkind h
    obtain ⟨between', after', hends', hregistry'⟩ := ih hnext hends
    exact ⟨between', after', hends', hregistry'.trans hregistry⟩

/-- A type that was found below some references is found again without them. -/
theorem Ends.again_ok {node : Node} {request : Request} {session session' : Session}
    {type : NativeType} (h : Ends cx document node request session (.ok type) session')
    {registry : Registry} (hextends : session'.registry.Extends registry) :
    ∃ later, Ends cx document node request { registry := registry } (.ok type) later := by
  obtain ⟨budget, hrun⟩ := h
  have hrejoins : Rejoins session { registry := registry } (.ok type : Except Failure NativeType) :=
    .of_chain_nil rfl (not_cyclic_ok type)
  have hreplays := map_replays cx budget document node request.name request.scope request.scope
    request.path
  obtain ⟨later, hlater⟩ := hreplays.replay hrun hextends hrejoins
  exact ⟨later, budget, hlater⟩

end Native

/-- In any run of native and wire mappers that share a registry, the same query has the same
answer whenever it is asked, and references of a document that stay in it and lead to the same
place come to the same native type whenever they come to one. -/
theorem mapping_is_stable {cx : Context} {start fleet : Fleet} {history : List (Query × Answer)}
    (hstart : start.Idle) (h : Run cx start history fleet) :
    (∀ query answer answer', (query, answer) ∈ history → (query, answer') ∈ history →
      answer = answer') ∧
    ∀ document reference reference' target target' node node' request request' type type',
      node.kind = .reference reference → node'.kind = .reference reference' →
      cx.library.LeadsWithin document reference target →
      cx.library.LeadsWithin document reference' target' → target.key = target'.key →
      (⟨.native, document, node, request⟩, .native (.ok type)) ∈ history →
      (⟨.native, document, node', request'⟩, .native (.ok type')) ∈ history → type = type' := by
  refine ⟨fun query answer answer' ↦ h.answer_unique hstart, ?_⟩
  intro document reference reference' target target' node node' request request' type type' hkind
    hkind' hleads hleads' hkey hmem hmem'
  -- both references are followed again at the end of the run, one after the other
  obtain ⟨after, hagain⟩ := h.again hstart hmem (.refl fleet.registry)
  obtain ⟨after', hagain'⟩ := h.again hstart hmem' hagain.extends
  have hextends : after.registry.Extends after'.registry := hagain'.extends
  cases hagain with
  | native hends =>
    cases hagain' with
    | native hends' =>
      obtain ⟨between, found, htarget, hfound⟩ := hends.of_leadsWithin hleads hkind
      obtain ⟨between', found', htarget', hfound'⟩ := hends'.of_leadsWithin hleads' hkind'
      obtain ⟨hnode, hrequest⟩ := hleads.eq_of_key hleads' hkey
      rw [← hnode, ← hrequest] at htarget'
      rw [← hfound, ← hfound'] at hextends
      obtain ⟨last, hlast⟩ := htarget.again_ok hextends
      obtain ⟨last', hlast'⟩ := htarget'.again_ok (.refl found'.registry)
      exact Except.ok.inj (hlast.unique hlast').1

namespace SwitchModes

/-- A document with a definition and another name for it. -/
def device : Document where
  uri := "Device"
  title := "Device"
  family := .schema
  definitionsRoot := "#/definitions"
  definitions := []
  methods := []
  content := .object [("title", .string "Device"), ("definitions", .object [
    ("Mode", .object [("type", .string "string"), ("enum", .array [.string "on", .string "off"])]),
    ("Default", .object [("$ref", .string "#/definitions/Mode")])])]

def cx : Context := ⟨⟨[device]⟩, {}⟩

def mode : Target :=
  ⟨device, .ofKind (.enumeration ["on", "off"]), "Mode", false, "Device#/definitions/Mode",
    "Device#/definitions/Mode"⟩

def default : Target :=
  ⟨device, .ofKind (.reference "#/definitions/Mode"), "Default", false,
    "Device#/definitions/Default", "Device#/definitions/Default"⟩

theorem resolve_mode (place : String) :
    cx.library.resolve device "#/definitions/Mode" place = .ok mode := by
  cbv

theorem resolve_default (place : String) :
    cx.library.resolve device "#/definitions/Default" place = .ok default := by
  cbv

theorem leads_mode : cx.library.LeadsWithin device "#/definitions/Mode" mode :=
  .target (resolve_mode "") (by decide)

theorem leads_default : cx.library.LeadsWithin device "#/definitions/Default" mode :=
  .hop (resolve_default "") (by decide) rfl leads_mode

/-- The setting of this name has the type of the definition. -/
def query (definition name : String) : Query :=
  ⟨.native, device, .ofKind (.reference ("#/definitions/" ++ definition)),
    ⟨name, "Set", "Device#/methods/0/params/" ++ name⟩⟩

def ask (definition name : String) (session : Session) :
    Option (Except Failure NativeType × Session) :=
  Native.map cx 8 device (query definition name).node (query definition name).request session

/-- The definition is asked for, then one that is missing, then the other name. -/
theorem asked : (do
    let (first, session) ← ask "Mode" "mode" {}
    let (second, session) ← ask "State" "state" session
    let (third, _) ← ask "Default" "initial" session
    pure (first.isOk && !second.isOk && third.isOk)) = some true := by
  decide +kernel

def fleet : Fleet := ⟨fun _ _ ↦ [], {}, 0⟩

theorem idle_fleet : fleet.Idle := fun _ _ ↦ rfl

/-- After another call that fails, the other name comes to the same type. -/
theorem one_type : ∃ history fleet' type type', Run cx fleet history fleet' ∧
    (query "Mode" "mode", .native (.ok type)) ∈ history ∧
    (query "Default" "initial", .native (.ok type')) ∈ history ∧ type = type' := by
  obtain ⟨⟨first, session⟩, hfirst, hrest⟩ := Option.bind_eq_some_iff.1 asked
  obtain ⟨⟨second, session'⟩, hsecond, hrest⟩ := Option.bind_eq_some_iff.1 hrest
  obtain ⟨⟨third, session''⟩, hthird, hresults⟩ := Option.bind_eq_some_iff.1 hrest
  cases first with
  | error failure => cases hresults
  | ok type =>
  cases third with
  | error failure => cases second <;> cases hresults
  | ok type' =>
  have hmode : (query "Mode" "mode").Ends cx (fleet.session .native 0) (.native (.ok type))
      session := .native ⟨8, hfirst⟩
  have hstate : (query "State" "state").Ends cx
      ((fleet.after .native 0 session).session .native 0) (.native second) session' := by
    rw [Fleet.session_after]
    exact .native ⟨8, hsecond⟩
  have hdefault : (query "Default" "initial").Ends cx
      (((fleet.after .native 0 session).after .native 0 session').session .native 0)
      (.native (.ok type')) session'' := by
    rw [Fleet.session_after]
    exact .native ⟨8, hthird⟩
  let history : List (Query × Answer) := [(query "Mode" "mode", .native (.ok type)),
    (query "State" "state", .native second), (query "Default" "initial", .native (.ok type'))]
  have hrun : Run cx fleet history _ :=
    .call (.call (.call .start hmode) hstate) hdefault
  have hmem : (query "Mode" "mode", .native (.ok type)) ∈ history := .head _
  have hmem' : (query "Default" "initial", .native (.ok type')) ∈ history :=
    .tail _ (.tail _ (.head _))
  exact ⟨history, _, type, type', hrun, hmem, hmem',
    (mapping_is_stable idle_fleet hrun).2 device _ _ mode mode (query "Mode" "mode").node
      (query "Default" "initial").node (query "Mode" "mode").request
      (query "Default" "initial").request type type' rfl rfl leads_mode leads_default rfl hmem
      hmem'⟩

end SwitchModes

end SchemaBindings
