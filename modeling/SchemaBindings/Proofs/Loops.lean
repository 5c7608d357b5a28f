import SchemaBindings.Proofs.Calls
import SchemaBindings.Proofs.Faults

/-!
# Loops of members

Flattening a composition follows references and goes into nested compositions, and remembers the
keys on its way and no others. It always comes to an end. Where every member is found and none is
a union, it ends in a cycle exactly if some way from the members passes a key twice, or a key that
is on the chain already. A schema that was met from another document is looked at with qualified
references, and these lead where the references lead that are written there.
-/

namespace SchemaBindings

open Mapping

/-- Following member references, as they are written, leads from a schema of a document to another
one and passes these keys in this order. -/
inductive Passes (library : Library) :
    Document → Node → List String → Document → Node → Prop
  | here {document : Document} {node : Node} : Passes library document node [] document node
  | member {document last : Document} {node member found : Node} {nodes : List Node}
      {keys : List String} (hkind : node.kind = .allOf nodes) (hmember : member ∈ nodes)
      (hrest : Passes library document member keys last found) :
      Passes library document node keys last found
  | reference {document last : Document} {node found : Node} {reference place : String}
      {target : Target} {keys : List String} (hkind : node.kind = .reference reference)
      (htarget : library.resolve document reference place = .ok target)
      (hrest : Passes library target.owner target.node keys last found) :
      Passes library document node (target.key :: keys) last found

/-- The schema is no union, and it resolves if it is a reference. -/
def Library.Follows (library : Library) (document : Document) (node : Node) : Prop :=
  node.kind.isUnion = false ∧ ∀ reference, node.kind = .reference reference →
    ∃ place target, library.resolve document reference place = .ok target

/-! ## Schemas met from other documents -/

theorem Text.notMem_of_cutChars {separator : Char} {text before after : List Char}
    (h : cutChars separator text = some (before, after)) : separator ∉ before := by
  induction text generalizing before with
  | nil => cases h
  | cons c rest ih =>
    rw [cutChars] at h
    split at h
    · cases h
      exact List.not_mem_nil
    case isFalse hne =>
      obtain ⟨⟨first, last⟩, hrest, heq⟩ := Option.map_eq_some_iff.1 h
      cases heq
      rw [List.mem_cons, not_or]
      exact ⟨fun hc ↦ hne hc.symm, ih hrest⟩

theorem Text.notMem_of_cutChars_eq_none {separator : Char} {text : List Char}
    (h : cutChars separator text = none) : separator ∉ text := by
  induction text with
  | nil => exact List.not_mem_nil
  | cons c rest ih =>
    rw [cutChars] at h
    split at h
    · cases h
    case isFalse hne =>
      rw [List.mem_cons, not_or]
      exact ⟨fun hc ↦ hne hc.symm, ih (Option.map_eq_none_iff.1 h)⟩

/-- The URI of a reference ends where its fragment starts. -/
theorem hash_notMem_splitReference (reference : String) :
    '#' ∉ (splitReference reference).1.toList := by
  unfold splitReference Text.cut
  cases hcut : Text.cutChars '#' reference.toList with
  | none => exact Text.notMem_of_cutChars_eq_none hcut
  | some parts =>
    obtain ⟨before, after⟩ := parts
    simpa using Text.notMem_of_cutChars hcut

namespace Occurrence

variable {library : Library} {o : Occurrence} {reference place : String} {target : Target}

/-- A schema that was met from another document stands in one whose URI can be written before a
local reference. -/
def Named (o : Occurrence) : Prop :=
  o.isForeign → o.home.uri ≠ "" ∧ '#' ∉ o.home.uri.toList

theorem named_of_resolve {current : Document}
    (h : library.resolve current reference place = .ok target) :
    Named ⟨target.owner, target.node, target.isExternal⟩ := by
  intro hforeign
  obtain ⟨fragment, -, hplace, -, -, -, hexternal, -⟩ := Library.resolve_eq_ok h
  have hne : target.owner.uri ≠ current.uri := of_decide_eq_true (hexternal ▸ hforeign)
  obtain ⟨owner, howner, heq⟩ := Option.map_eq_some_iff.1 hplace
  cases heq
  unfold Library.owner? at howner
  split at howner
  · cases howner
    exact absurd rfl hne
  case isFalse hother =>
    have huri := Library.uri_of_get? howner
    dsimp only
    rw [huri]
    exact ⟨fun hempty ↦ hother (.inl hempty), hash_notMem_splitReference reference⟩

/-- The copy of a reference leads where the reference leads. -/
theorem Named.resolve_copyReference (h : o.Named) :
    library.resolve o.home (o.copyReference reference) place = .ok target ↔
      library.resolve o.home reference place = .ok target := by
  have hplace :
      library.place? o.home (o.copyReference reference) = library.place? o.home reference := by
    unfold copyReference
    split
    case isFalse => rfl
    case isTrue hforeign =>
      unfold qualifyReference
      split
      case isFalse => rfl
      case isTrue hlocal =>
        have howner : library.owner? o.home o.home.uri = some o.home := if_pos (.inr rfl)
        rw [Library.place?_of_owner? (h hforeign).2 howner hlocal, Library.place?_of_isLocal hlocal]
  rw [Library.resolve_eq_ok_iff, Library.resolve_eq_ok_iff, hplace]

theorem Named.member (h : o.Named) (node : Node) : Named { o with node := node } := h

theorem kind_copy (o : Occurrence) :
    o.copy.kind = if o.isForeign then o.node.kind.qualify o.home.uri else o.node.kind := by
  unfold copy
  split
  · exact Node.kind_qualify _ _
  · rfl

theorem copy_of_reference (hkind : o.node.kind = .reference reference) :
    o.copy.kind = .reference (o.copyReference reference) := by
  rw [kind_copy, hkind]
  unfold copyReference
  split <;> rfl

theorem copy_of_allOf {nodes : List Node} (hkind : o.node.kind = .allOf nodes) :
    o.copy.kind = .allOf (nodes.map fun node ↦ ({ o with node := node } : Occurrence).copy) := by
  rw [kind_copy, hkind]
  unfold copy
  split
  · exact congrArg Kind.allOf (qualifyList_eq_map _ nodes)
  · exact congrArg Kind.allOf (List.map_id nodes).symm

theorem isUnion_copy (o : Occurrence) : o.copy.kind.isUnion = o.node.kind.isUnion := by
  rw [kind_copy]
  split
  · exact Kind.isUnion_qualify _ _
  · rfl

end Occurrence

/-! ## Ways of flattening -/

namespace Flatten

open Occurrence

variable {library : Library} {budget : Nat} {path : String} {o : Occurrence}
  {session session' : Session} {kinds : List Kind} {failure : Failure}

section Members

variable {collect : Document → String → Node → Mapping (List Kind)} {document : Document}
  {position : Nat} {nodes : List Node}
  (hstatic : ∀ document path node, Static (collect document path node))
include hstatic

/-- If the members are collected, each one is collected from the same session. -/
theorem exists_ok_of_members
    (h : members collect document path position nodes session = some (.ok kinds, session'))
    {node : Node} (hnode : node ∈ nodes) :
    ∃ path found after, collect document path node session = some (.ok found, after) := by
  induction nodes generalizing position session' kinds with
  | nil => cases hnode
  | cons first rest ih =>
    obtain ⟨found, between, hfirst, hnext⟩ := bind_eq_ok.1 h
    obtain ⟨rfl, -⟩ := (hstatic _ _ _).run_of_chain_eq hfirst rfl
    obtain ⟨others, after, hothers, -⟩ := bind_eq_ok.1 hnext
    obtain rfl | hrest := List.mem_cons.1 hnode
    · exact ⟨_, found, _, hfirst⟩
    · exact ih hothers hrest

/-- If the members fail, one of them fails in the same way from the same session. -/
theorem exists_error_of_members
    (h : members collect document path position nodes session = some (.error failure, session')) :
    ∃ node ∈ nodes, ∃ path after,
      collect document path node session = some (.error failure, after) := by
  induction nodes generalizing position with
  | nil => cases h
  | cons first rest ih =>
    obtain ⟨found, between, hfirst, hnext⟩ | ⟨_, hfirst, heq⟩ := bind_eq_some.1 h
    · obtain ⟨rfl, -⟩ := (hstatic _ _ _).run_of_chain_eq hfirst rfl
      obtain ⟨others, after, -, hpure⟩ | ⟨_, hothers, heq⟩ := bind_eq_some.1 hnext
      · cases hpure
      · cases heq
        obtain ⟨node, hnode, hfails⟩ := ih hothers
        exact ⟨node, .tail _ hnode, hfails⟩
    · cases heq
      exact ⟨first, .head _, _, _, hfirst⟩

end Members

theorem collect_of_reference {reference : String} (hkind : o.node.kind = .reference reference) :
    collect library (budget + 1) o.home path o.copy = (do
      let target ← Mapping.ofExcept (library.resolve o.home (o.copyReference reference) path)
      following target.key path (collect library budget target.owner target.path
        (Occurrence.copy ⟨target.owner, target.node, target.isExternal⟩))) := by
  change step _ _ _ _ _ = _
  unfold step
  rw [copy_of_reference hkind]
  rfl

theorem collect_of_allOf {nodes : List Node} (hkind : o.node.kind = .allOf nodes) :
    collect library (budget + 1) o.home path o.copy =
      members (collect library budget) o.home (Pointer.child path "allOf") 0
        (nodes.map fun node ↦ ({ o with node := node } : Occurrence).copy) := by
  change step _ _ _ _ _ = _
  unfold step
  rw [copy_of_allOf hkind]

theorem collect_of_plain (hreference : ∀ reference, o.node.kind ≠ .reference reference)
    (hallOf : ∀ nodes, o.node.kind ≠ .allOf nodes) :
    collect library (budget + 1) o.home path o.copy =
      if o.node.kind.isUnion then Mapping.fail (.unsupportedUnion path)
      else pure [o.copy.kind] := by
  change step _ _ _ _ _ = _
  unfold step
  rw [← isUnion_copy]
  cases hcopied : o.copy.kind with
  | reference copied =>
    obtain ⟨reference, hkind, -⟩ := copy_eq_reference hcopied
    exact absurd hkind (hreference reference)
  | allOf copies =>
    obtain ⟨nodes, hkind, -⟩ := copy_eq_allOf hcopied
    exact absurd hkind (hallOf nodes)
  | _ => rfl

/-- A cycle is found where a way passes a key again, and is reported by the chain and this way. -/
theorem exists_passes_of_collect {keys : List String} {place : String} (hnamed : o.Named)
    (h : collect library budget o.home path o.copy session =
      some (.error (.cyclicReference keys place), session')) :
    ∃ passed last document node, Passes library o.home o.node (passed ++ [last]) document node ∧
      keys = session.chain.reverse ++ passed ++ [last] ∧
        (last ∈ session.chain ∨ last ∈ passed) := by
  induction budget generalizing path o session session' with
  | zero => cases h
  | succ budget ih =>
    cases hkind : o.node.kind with
    | reference reference =>
      rw [collect_of_reference hkind, run_ofExcept_bind] at h
      cases htarget : library.resolve o.home (o.copyReference reference) path with
      | error failure =>
        rw [htarget] at h
        cases h
        cases (library.resolve_faults _ _ _ _ htarget).2
      | ok target =>
        rw [htarget] at h
        have hwritten := hnamed.resolve_copyReference.1 htarget
        by_cases hkey : target.key ∈ session.chain
        · dsimp only at h
          rw [run_following, if_pos hkey] at h
          cases h
          exact ⟨[], target.key, _, _, .reference hkind hwritten .here, by simp, .inl hkey⟩
        · obtain ⟨after, hbody, -⟩ := following_eq_some hkey h
          obtain ⟨passed, last, document, node, hpasses, rfl, hlast⟩ :=
            ih (o := ⟨target.owner, target.node, target.isExternal⟩) (named_of_resolve htarget)
              hbody
          refine ⟨target.key :: passed, last, document, node, .reference hkind hwritten hpasses,
            by simp, ?_⟩
          rw [Session.chain_push, List.mem_cons] at hlast
          rw [List.mem_cons]
          tauto
    | allOf nodes =>
      rw [collect_of_allOf hkind] at h
      obtain ⟨copy, hcopy, _, _, hfails⟩ := exists_error_of_members (collect_static _ _) h
      obtain ⟨node, hnode, rfl⟩ := List.mem_map.1 hcopy
      obtain ⟨passed, last, document, found, hpasses, hkeys⟩ :=
        ih (o := { o with node := node }) (hnamed.member node) hfails
      exact ⟨passed, last, document, found, .member hkind hnode hpasses, hkeys⟩
    | _ =>
      rw [collect_of_plain (by simp [hkind]) (by simp [hkind])] at h
      split at h <;> cases h

/-- What is collected passes no key twice and none that is on the chain. -/
theorem passes_of_collect (hnamed : o.Named)
    (h : collect library budget o.home path o.copy session = some (.ok kinds, session'))
    {keys : List String} {document : Document} {node : Node}
    (hpasses : Passes library o.home o.node keys document node) :
    keys.Nodup ∧ ∀ key ∈ keys, key ∉ session.chain := by
  induction budget generalizing path o session session' kinds keys with
  | zero => cases h
  | succ budget ih =>
    cases hpasses with
    | here => exact ⟨.nil, nofun⟩
    | @member _ _ _ member _ nodes _ hkind hmember hrest =>
      rw [collect_of_allOf hkind] at h
      let copies := fun node ↦ ({ o with node := node } : Occurrence).copy
      have hcopy : copies member ∈ nodes.map copies := List.mem_map_of_mem hmember
      obtain ⟨_, _, _, hok⟩ := exists_ok_of_members (collect_static _ _) h hcopy
      exact ih (o := { o with node := member }) (hnamed.member member) hok hrest
    | @reference _ _ _ _ reference place target keys hkind hwritten hrest =>
      have htarget := hnamed.resolve_copyReference.2 (Library.resolve_place hwritten path)
      rw [collect_of_reference hkind, run_ofExcept_bind, htarget] at h
      obtain ⟨after, hbody, -⟩ := following_eq_ok h
      obtain ⟨hnodup, hnew⟩ := ih (o := ⟨target.owner, target.node, target.isExternal⟩)
        (named_of_resolve htarget) hbody hrest
      have hkey : target.key ∉ session.chain := by
        intro hkey
        dsimp only at h
        rw [run_following, if_pos hkey] at h
        cases h
      rw [Session.chain_push] at hnew
      simp only [List.mem_cons, not_or] at hnew
      refine ⟨List.nodup_cons.2 ⟨fun hagain ↦ (hnew _ hagain).1 rfl, hnodup⟩, ?_⟩
      rintro key (_ | ⟨_, hrest⟩)
      · exact hkey
      · exact (hnew key hrest).2

/-- Where every member is found and none is a union, only cycles are left to fail by. -/
theorem isCyclic_of_collect (hnamed : o.Named)
    (hfollows : ∀ {keys document node}, Passes library o.home o.node keys document node →
      library.Follows document node)
    (h : collect library budget o.home path o.copy session = some (.error failure, session')) :
    failure.isCyclic := by
  induction budget generalizing path o session session' with
  | zero => cases h
  | succ budget ih =>
    cases hkind : o.node.kind with
    | reference reference =>
      obtain ⟨place, target, hwritten⟩ := (hfollows .here).2 reference hkind
      have htarget := hnamed.resolve_copyReference.2 (Library.resolve_place hwritten path)
      rw [collect_of_reference hkind, run_ofExcept_bind, htarget] at h
      by_cases hkey : target.key ∈ session.chain
      · dsimp only at h
        rw [run_following, if_pos hkey] at h
        cases h
        rfl
      · obtain ⟨after, hbody, -⟩ := following_eq_some hkey h
        exact ih (o := ⟨target.owner, target.node, target.isExternal⟩) (named_of_resolve htarget)
          (fun hpasses ↦ hfollows (.reference hkind hwritten hpasses)) hbody
    | allOf nodes =>
      rw [collect_of_allOf hkind] at h
      obtain ⟨copy, hcopy, _, _, hfails⟩ := exists_error_of_members (collect_static _ _) h
      obtain ⟨node, hnode, rfl⟩ := List.mem_map.1 hcopy
      exact ih (o := { o with node := node }) (hnamed.member node)
        (fun hpasses ↦ hfollows (.member hkind hnode hpasses)) hfails
    | _ =>
      have hunion := (hfollows .here).1
      rw [collect_of_plain (by simp [hkind]) (by simp [hkind]), hunion] at h
      cases h

end Flatten

section Merging

open Flatten

variable {library : Library} {budget : Nat} {document : Document} {outer : Node}
  {members : List Node} {path : String} {session session' : Session}

/-- A merge that fails by a cycle does so while one of the members is collected. -/
theorem members_of_mergeAllOf {keys : List String} {place : String}
    (h : mergeAllOf library budget document outer members path session =
      some (.error (.cyclicReference keys place), session')) :
    ∃ member ∈ members, ∃ path after, collect library budget document path member session =
      some (.error (.cyclicReference keys place), after) := by
  obtain ⟨kinds, between, -, hrest⟩ | ⟨failure, hfails, heq⟩ := bind_eq_some.1 h
  · rw [run_ofExcept_bind] at hrest
    cases hmerged : mergeKinds path kinds with
    | ok kind =>
      rw [hmerged] at hrest
      cases hrest
    | error failure =>
      rw [hmerged] at hrest
      cases hrest
      cases (mergeKinds_faults path kinds _ hmerged).2
  · cases heq
    exact exists_error_of_members (collect_static _ _) hfails

/-- Merging the members of a composition always ends. If every member that references and nested
compositions lead to is found and is no union, merging fails by a cycle exactly if some way from
a member passes a key that is on the chain, or passes a key twice. The cycle that is reported
ends with a key that is in it before. -/
theorem merging_finds_member_loops (library : Library) (document : Document) (outer : Node)
    (members : List Node) (path : String) (session : Session) :
    (∃ budget result session',
      mergeAllOf library budget document outer members path session = some (result, session')) ∧
    ((∀ member ∈ members, ∀ keys document' node,
        Passes library document member keys document' node → library.Follows document' node) →
      ((∃ budget keys place session', mergeAllOf library budget document outer members path
          session = some (.error (.cyclicReference keys place), session')) ↔
        ∃ member ∈ members, ∃ keys document' node,
          Passes library document member keys document' node ∧
            ((∃ key ∈ keys, key ∈ session.chain) ∨ ¬keys.Nodup))) ∧
    ∀ budget keys place session', mergeAllOf library budget document outer members path session =
      some (.error (.cyclicReference keys place), session') →
        ∃ before last, keys = before ++ [last] ∧ last ∈ before := by
  have hends : ∃ budget result session',
      mergeAllOf library budget document outer members path session = some (result, session') := by
    let call : Call := ⟨document, .ofKind (.allOf members), ⟨"", "", path⟩, session⟩
    have hmembers : ∀ member ∈ members, (call.cover library).Holds document member :=
      fun member hmember ↦ (call.cover_holds library).of_mentions fun hm ↦
        mem_listMentions.2 ⟨member, hmember, hm⟩
    obtain ⟨budget, hhalts⟩ := exists_halts_mergeAllOf hmembers outer path session
    exact ⟨budget, halts_iff.1 hhalts⟩
  -- a cycle is found on a way from one of the members
  have hloop : ∀ {budget keys place session'},
      mergeAllOf library budget document outer members path session =
        some (.error (.cyclicReference keys place), session') →
      ∃ member ∈ members, ∃ passed last document' node,
        Passes library document member (passed ++ [last]) document' node ∧
          keys = session.chain.reverse ++ passed ++ [last] ∧
            (last ∈ session.chain ∨ last ∈ passed) := by
    intro budget keys place session' h
    obtain ⟨member, hmember, _, _, hfails⟩ := members_of_mergeAllOf h
    exact ⟨member, hmember,
      exists_passes_of_collect (o := ⟨document, member, false⟩) nofun hfails⟩
  refine ⟨hends, fun hfollows ↦ ⟨?_, ?_⟩, fun budget keys place session' h ↦ ?_⟩
  · rintro ⟨budget, keys, place, session', h⟩
    obtain ⟨member, hmember, passed, last, document', node, hpasses, -, hlast⟩ := hloop h
    refine ⟨member, hmember, _, document', node, hpasses,
      hlast.imp (fun hchain ↦ ?_) fun hagain ↦ ?_⟩
    · exact ⟨last, by simp, hchain⟩
    · rw [List.nodup_append]
      simp [hagain]
  · rintro ⟨member, hmember, keys, document', node, hpasses, hbad⟩
    obtain ⟨budget, result, session', hrun⟩ := hends
    obtain ⟨kinds, between, hcollected, -⟩ | ⟨failure, hfails, rfl⟩ := bind_eq_some.1 hrun
    · obtain ⟨_, _, _, hok⟩ := exists_ok_of_members (collect_static _ _) hcollected hmember
      obtain ⟨hnodup, hnew⟩ :=
        passes_of_collect (o := ⟨document, member, false⟩) nofun hok hpasses
      obtain ⟨key, hkey, hchain⟩ | hagain := hbad
      · exact absurd hchain (hnew key hkey)
      · exact absurd hnodup hagain
    · obtain ⟨other, hother, _, _, hcollect⟩ := exists_error_of_members (collect_static _ _) hfails
      have hcyclic := isCyclic_of_collect (o := ⟨document, other, false⟩) nofun
        (fun hpasses ↦ hfollows other hother _ _ _ hpasses) hcollect
      cases failure with
      | cyclicReference keys place => exact ⟨budget, keys, place, session', hrun⟩
      | _ => cases hcyclic
  · obtain ⟨member, -, passed, last, document', node, -, rfl, hlast⟩ := hloop h
    refine ⟨session.chain.reverse ++ passed, last, rfl, ?_⟩
    rw [List.mem_append, List.mem_reverse]
    exact hlast

end Merging

namespace LoopingMember

/-- A composition whose only member is this composition. -/
def reference : Node := .ofKind (.reference "#/definitions/Loop")

def loop : Node := .ofKind (.allOf [reference])

def radio : Document where
  uri := "Radio"
  title := "Radio"
  family := .schema
  definitionsRoot := "#/definitions"
  definitions := [("Loop", loop)]
  methods := []
  content := .object [("title", .string "Radio"), ("definitions", .object [
    ("Loop", .object [("allOf", .array [.object [("$ref", .string "#/definitions/Loop")]])])])]

def library : Library := ⟨[radio]⟩

def target : Target :=
  ⟨radio, loop, "Loop", false, "Radio#/definitions/Loop", "Radio#/definitions/Loop"⟩

theorem resolve_target (place : String) :
    library.resolve radio "#/definitions/Loop" place = .ok target := by
  have hroot : library.resolve radio "#/definitions/Loop" "" = .ok target := by cbv
  exact Library.resolve_place hroot place

theorem eq_of_passes {document last : Document} {node found : Node} {keys : List String}
    (h : Passes library document node keys last found) (hdocument : document = radio)
    (hnode : node = reference ∨ node = loop) :
    last = radio ∧ (found = reference ∨ found = loop) := by
  induction h with
  | here => exact ⟨hdocument, hnode⟩
  | member hkind hmember _ ih =>
    obtain rfl | rfl := hnode
    · cases hkind
    · cases hkind
      exact ih hdocument (.inl (List.mem_singleton.1 hmember))
  | @reference _ _ _ _ written place found _ hkind htarget _ ih =>
    subst hdocument
    obtain rfl | rfl := hnode
    · cases hkind
      rw [resolve_target] at htarget
      cases htarget
      exact ih rfl (.inr rfl)
    · cases hkind

theorem passes_twice :
    Passes library radio reference [target.key, target.key] radio loop :=
  .reference rfl (resolve_target "") (.member rfl (.head _)
    (.reference rfl (resolve_target "") .here))

theorem loop_is_found (outer : Node) (path : String) : ∃ budget keys place session',
    mergeAllOf library budget radio outer [reference] path {} =
      some (.error (.cyclicReference keys place), session') := by
  refine ((merging_finds_member_loops library radio outer [reference] path {}).2.1 ?_).2
    ⟨reference, .head _, _, _, _, passes_twice, .inr (by simp)⟩
  intro member hmember keys document node hpasses
  obtain ⟨rfl, hnode⟩ := eq_of_passes hpasses rfl (.inl (List.mem_singleton.1 hmember))
  obtain rfl | rfl := hnode
  · refine ⟨rfl, fun written hkind ↦ ?_⟩
    cases hkind
    exact ⟨"", target, resolve_target ""⟩
  · exact ⟨rfl, nofun⟩

end LoopingMember

end SchemaBindings
