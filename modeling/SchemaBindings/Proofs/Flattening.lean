import SchemaBindings.Proofs.Budget
import SchemaBindings.Proofs.Loops
import SchemaBindings.Proofs.Regularity

/-!
# Flattening as a relation

Which kinds schemas flatten to does not depend on the chain of keys, on the places the schemas
are used at or on a budget; the chain decides only whether flattening comes through. So flattening
is described in two parts, a relation between schemas and their kinds and a condition on the keys
that references pass, and each part can be compared for two lists of schemas on its own.
-/

namespace SchemaBindings

open Mapping Occurrence

namespace Flatten

variable {library : Library} {home : Document} {isForeign : Bool} {nodes others : List Node}
  {node : Node} {kinds : List Kind} {chain : List String}

/-- Schemas of a document, as they are written there, flatten to these kinds. -/
inductive Yields (library : Library) : Document → Bool → List Node → List Kind → Prop
  | nil {home : Document} {isForeign : Bool} : Yields library home isForeign [] []
  | reference {home : Document} {isForeign : Bool} {node : Node} {rest : List Node}
      {reference place : String} {target : Target} {first others : List Kind}
      (hkind : node.kind = .reference reference)
      (htarget : library.resolve home reference place = .ok target)
      (hfirst : Yields library target.owner target.isExternal [target.node] first)
      (hrest : Yields library home isForeign rest others) :
      Yields library home isForeign (node :: rest) (first ++ others)
  | allOf {home : Document} {isForeign : Bool} {node : Node} {nodes rest : List Node}
      {first others : List Kind} (hkind : node.kind = .allOf nodes)
      (hfirst : Yields library home isForeign nodes first)
      (hrest : Yields library home isForeign rest others) :
      Yields library home isForeign (node :: rest) (first ++ others)
  | plain {home : Document} {isForeign : Bool} {node : Node} {rest : List Node}
      {others : List Kind} (hreference : ∀ reference, node.kind ≠ .reference reference)
      (hallOf : ∀ nodes, node.kind ≠ .allOf nodes) (hunion : node.kind.isUnion = false)
      (hrest : Yields library home isForeign rest others) :
      Yields library home isForeign (node :: rest)
        ((Occurrence.copy ⟨home, node, isForeign⟩).kind :: others)

/-- No way from the schemas passes a key twice, or one that is on the chain. -/
def Clear (library : Library) (chain : List String) (home : Document) (nodes : List Node) : Prop :=
  ∀ node ∈ nodes, ∀ keys last found, Passes library home node keys last found →
    keys.Nodup ∧ ∀ key ∈ keys, key ∉ chain

/-! ## Lists of schemas -/

theorem Yields.append {first second : List Kind} (h : Yields library home isForeign nodes first)
    (h' : Yields library home isForeign others second) :
    Yields library home isForeign (nodes ++ others) (first ++ second) := by
  induction h with
  | nil => exact h'
  | reference hkind htarget hfirst _ _ ih =>
    rw [List.cons_append, List.append_assoc]
    exact .reference hkind htarget hfirst (ih h')
  | allOf hkind hfirst _ _ ih =>
    rw [List.cons_append, List.append_assoc]
    exact .allOf hkind hfirst (ih h')
  | plain hreference hallOf hunion _ ih =>
    exact .plain hreference hallOf hunion (ih h')

theorem yields_cons_iff : Yields library home isForeign (node :: nodes) kinds ↔
    ∃ first others, kinds = first ++ others ∧ Yields library home isForeign [node] first ∧
      Yields library home isForeign nodes others := by
  constructor
  · intro h
    cases h with
    | reference hkind htarget hfirst hrest =>
      refine ⟨_, _, rfl, ?_, hrest⟩
      simpa using Yields.reference hkind htarget hfirst .nil
    | allOf hkind hfirst hrest =>
      refine ⟨_, _, rfl, ?_, hrest⟩
      simpa using Yields.allOf hkind hfirst .nil
    | plain hreference hallOf hunion hrest =>
      exact ⟨[_], _, rfl, .plain hreference hallOf hunion .nil, hrest⟩
  · rintro ⟨first, others, rfl, hfirst, hothers⟩
    exact hfirst.append hothers

theorem yields_append_iff : Yields library home isForeign (nodes ++ others) kinds ↔
    ∃ first second, kinds = first ++ second ∧ Yields library home isForeign nodes first ∧
      Yields library home isForeign others second := by
  constructor
  · intro h
    induction nodes generalizing kinds with
    | nil => exact ⟨[], kinds, rfl, .nil, h⟩
    | cons node rest ih =>
      obtain ⟨first, last, rfl, hfirst, hlast⟩ := yields_cons_iff.1 h
      obtain ⟨second, third, rfl, hsecond, hthird⟩ := ih hlast
      exact ⟨first ++ second, third, (List.append_assoc _ _ _).symm, hfirst.append hsecond, hthird⟩
  · rintro ⟨first, second, rfl, hfirst, hsecond⟩
    exact hfirst.append hsecond

/-- A nested composition flattens to what its members flatten to. -/
theorem yields_allOf_iff (hkind : node.kind = .allOf nodes) :
    Yields library home isForeign [node] kinds ↔ Yields library home isForeign nodes kinds := by
  constructor
  · intro h
    cases h with
    | reference hreference => cases hkind.symm.trans hreference
    | allOf hallOf hfirst hrest =>
      cases hkind.symm.trans hallOf
      cases hrest
      rwa [List.append_nil]
    | plain _ hallOf => exact absurd hkind (hallOf nodes)
  · intro h
    simpa using Yields.allOf hkind h .nil

/-- A reference flattens to what the schema flattens to that it leads to. -/
theorem yields_reference_iff {reference place : String} {target : Target}
    (hkind : node.kind = .reference reference)
    (htarget : library.resolve home reference place = .ok target) :
    Yields library home isForeign [node] kinds ↔
      Yields library target.owner target.isExternal [target.node] kinds := by
  constructor
  · intro h
    cases h with
    | @reference _ _ _ _ written place' found _ _ hreference hfound hfirst hrest =>
      cases hkind.symm.trans hreference
      cases (Library.resolve_place hfound place).symm.trans htarget
      cases hrest
      rwa [List.append_nil]
    | allOf hallOf => cases hkind.symm.trans hallOf
    | plain hreference => exact absurd hkind (hreference reference)
  · intro h
    simpa using Yields.reference hkind htarget h .nil

/-- The kinds that regular schemas flatten to are regular. -/
theorem Yields.regular {isForeign : Bool} (h : Yields library home isForeign nodes kinds)
    (hlibrary : library.IsRegular home) (hnodes : ∀ node ∈ nodes, node.kind.Regular) :
    ∀ kind ∈ kinds, kind.Regular := by
  induction h with
  | nil => exact nofun
  | reference _ htarget _ _ ihFirst ihRest =>
    obtain ⟨howner, htargetNode⟩ := hlibrary.resolve htarget
    exact List.forall_mem_append.2 ⟨ihFirst howner (List.forall_mem_singleton.2 htargetNode),
      ihRest hlibrary (List.forall_mem_cons.1 hnodes).2⟩
  | allOf hkind _ _ ihFirst ihRest =>
    obtain ⟨hnode, hrest⟩ := List.forall_mem_cons.1 hnodes
    exact List.forall_mem_append.2
      ⟨ihFirst hlibrary fun member hmember ↦ hnode.inside (by rw [hkind]; exact hmember),
        ihRest hlibrary hrest⟩
  | plain _ _ _ _ ih =>
    obtain ⟨hnode, hrest⟩ := List.forall_mem_cons.1 hnodes
    refine List.forall_mem_cons.2 ⟨?_, ih hlibrary hrest⟩
    rw [Occurrence.kind_copy]
    split
    · exact hnode.qualify _
    · exact hnode

theorem clear_append_iff : Clear library chain home (nodes ++ others) ↔
    Clear library chain home nodes ∧ Clear library chain home others :=
  List.forall_mem_append

theorem clear_cons_iff : Clear library chain home (node :: nodes) ↔
    Clear library chain home [node] ∧ Clear library chain home nodes := by
  rw [← clear_append_iff, List.singleton_append]

theorem clear_singleton_iff : Clear library chain home [node] ↔
    ∀ keys last found, Passes library home node keys last found →
      keys.Nodup ∧ ∀ key ∈ keys, key ∉ chain :=
  List.forall_mem_singleton

theorem clear_allOf_iff (hkind : node.kind = .allOf nodes) :
    Clear library chain home [node] ↔ Clear library chain home nodes := by
  rw [clear_singleton_iff]
  constructor
  · intro h member hmember keys last found hpasses
    exact h keys last found (.member hkind hmember hpasses)
  · intro h keys last found hpasses
    cases hpasses with
    | here => exact ⟨.nil, nofun⟩
    | member hallOf hmember hrest =>
      cases hkind.symm.trans hallOf
      exact h _ hmember keys last found hrest
    | reference hreference => cases hkind.symm.trans hreference

/-- A reference is passed if its key is new and its target is passed after it. -/
theorem clear_reference_iff {reference place : String} {target : Target}
    (hkind : node.kind = .reference reference)
    (htarget : library.resolve home reference place = .ok target) :
    Clear library chain home [node] ↔
      target.key ∉ chain ∧ Clear library (target.key :: chain) target.owner [target.node] := by
  simp only [clear_singleton_iff, List.mem_cons, not_or]
  constructor
  · intro h
    refine ⟨(h _ _ _ (.reference hkind htarget .here)).2 _ (.head _), ?_⟩
    intro keys last found hpasses
    obtain ⟨hnodup, hnew⟩ := h _ _ _ (.reference hkind htarget hpasses)
    obtain ⟨hkey, hkeys⟩ := List.nodup_cons.1 hnodup
    exact ⟨hkeys, fun key hmem ↦ ⟨fun heq ↦ hkey (heq ▸ hmem), hnew key (.tail _ hmem)⟩⟩
  · rintro ⟨hkey, h⟩ keys last found hpasses
    cases hpasses with
    | here => exact ⟨.nil, nofun⟩
    | member hallOf => cases hkind.symm.trans hallOf
    | @reference _ _ _ _ written place' found' _ hreference hfound hrest =>
      cases hkind.symm.trans hreference
      cases (Library.resolve_place hfound place).symm.trans htarget
      obtain ⟨hnodup, hnew⟩ := h _ _ _ hrest
      exact ⟨List.nodup_cons.2 ⟨fun hmem ↦ (hnew _ hmem).1 rfl, hnodup⟩,
        List.forall_mem_cons.2 ⟨hkey, fun key hmem ↦ (hnew key hmem).2⟩⟩

/-! ## Runs of flattening -/

variable {budget position : Nat} {path : String} {session session' : Session}

theorem yields_of_members {collect : Document → String → Node → Mapping (List Kind)}
    {copy : Node → Node} (hcollect : ∀ node path session kinds session',
      collect home path (copy node) session = some (.ok kinds, session') →
        Yields library home isForeign [node] kinds)
    (h : members collect home path position (nodes.map copy) session =
      some (.ok kinds, session')) : Yields library home isForeign nodes kinds := by
  induction nodes generalizing position session kinds with
  | nil =>
    cases h
    exact .nil
  | cons node rest ih =>
    obtain ⟨first, _, hfirst, hnext⟩ := bind_eq_ok.1 h
    obtain ⟨others, _, hothers, hpure⟩ := bind_eq_ok.1 hnext
    cases hpure
    exact yields_cons_iff.2 ⟨first, others, rfl, hcollect _ _ _ _ _ hfirst, ih hothers⟩

theorem yields_of_collect {o : Occurrence} (hnamed : o.Named)
    (h : collect library budget o.home path o.copy session = some (.ok kinds, session')) :
    Yields library o.home o.isForeign [o.node] kinds := by
  induction budget generalizing path o session session' kinds with
  | zero => cases h
  | succ budget ih =>
    cases hkind : o.node.kind with
    | reference reference =>
      rw [collect_of_reference hkind, run_ofExcept_bind] at h
      cases htarget : library.resolve o.home (o.copyReference reference) path with
      | error failure =>
        rw [htarget] at h
        cases h
      | ok target =>
        rw [htarget] at h
        obtain ⟨after, hbody, -⟩ := following_eq_ok h
        exact (yields_reference_iff hkind (hnamed.resolve_copyReference.1 htarget)).2
          (ih (o := ⟨target.owner, target.node, target.isExternal⟩) (named_of_resolve htarget)
            hbody)
    | allOf nodes =>
      rw [collect_of_allOf hkind] at h
      exact (yields_allOf_iff hkind).2 (yields_of_members (fun node _ _ _ _ hrun ↦
        ih (o := { o with node := node }) (hnamed.member node) hrun) h)
    | _ =>
      have hreference : ∀ reference, o.node.kind ≠ .reference reference := by simp [hkind]
      have hallOf : ∀ nodes, o.node.kind ≠ .allOf nodes := by simp [hkind]
      rw [collect_of_plain hreference hallOf] at h
      split at h
      · cases h
      case isFalse hunion =>
        cases h
        exact .plain hreference hallOf (Bool.not_eq_true _ ▸ hunion) .nil

/-- The kinds of each schema are collected wherever it is used, and the session is kept. -/
def Collects (library : Library) (home : Document) (isForeign : Bool) (session : Session)
    (budget : Nat) (nodes : List Node) (groups : List (List Kind)) : Prop :=
  List.Forall₂ (fun node group ↦ ∀ path,
    collect library budget home path (Occurrence.copy ⟨home, node, isForeign⟩) session =
      some (.ok group, session)) nodes groups

theorem Collects.mono {budget' : Nat} {groups : List (List Kind)} (hle : budget ≤ budget')
    (h : Collects library home isForeign session budget nodes groups) :
    Collects library home isForeign session budget' nodes groups :=
  h.imp fun _ _ hrun path ↦ collect_refines library hle _ _ _ _ _ (hrun path)

theorem Collects.members {groups : List (List Kind)}
    (h : Collects library home isForeign session budget nodes groups) :
    members (collect library budget) home path position
        (nodes.map fun node ↦ Occurrence.copy ⟨home, node, isForeign⟩) session =
      some (.ok groups.flatten, session) := by
  induction h generalizing position with
  | nil => rfl
  | cons hfirst _ ih =>
    exact bind_eq_ok.2 ⟨_, _, hfirst _, bind_eq_ok.2 ⟨_, _, ih, rfl⟩⟩

/-- One schema is collected with some budget, and others with another one. -/
theorem exists_collects_cons {first others : List Kind}
    (hfirst : ∃ budget, ∀ path, collect library budget home path
      (Occurrence.copy ⟨home, node, isForeign⟩) session = some (.ok first, session))
    (hothers : ∃ budget groups, groups.flatten = others ∧
      Collects library home isForeign session budget nodes groups) :
    ∃ budget groups, groups.flatten = first ++ others ∧
      Collects library home isForeign session budget (node :: nodes) groups := by
  obtain ⟨budget, hfirst⟩ := hfirst
  obtain ⟨budget', groups, rfl, hothers⟩ := hothers
  refine ⟨max budget budget', first :: groups, rfl, .cons (fun path ↦ ?_)
    (hothers.mono (Nat.le_max_right _ _))⟩
  exact collect_refines library (Nat.le_max_left _ _) _ _ _ _ _ (hfirst path)

/-- What schemas yield is collected with some budget if their ways are clear. -/
theorem Yields.collects (h : Yields library home isForeign nodes kinds)
    (hnamed : isForeign → home.uri ≠ "" ∧ '#' ∉ home.uri.toList)
    (hclear : Clear library session.chain home nodes) : ∃ budget groups,
      groups.flatten = kinds ∧ Collects library home isForeign session budget nodes groups := by
  induction h generalizing session with
  | nil => exact ⟨0, [], rfl, .nil⟩
  | @reference home isForeign node rest reference place target first others hkind htarget _ _
      ihFirst ihRest =>
    obtain ⟨hnode, hrest⟩ := clear_cons_iff.1 hclear
    obtain ⟨hkey, htail⟩ := (clear_reference_iff hkind htarget).1 hnode
    have hpushed : Clear library (session.push target.key).chain target.owner [target.node] :=
      htail
    obtain ⟨budget, groups, rfl, hcollects⟩ := ihFirst
      (Occurrence.named_of_resolve htarget) hpushed
    refine exists_collects_cons ⟨budget + 1, fun path ↦ ?_⟩ (ihRest hnamed hrest)
    obtain _ | ⟨hbody, ⟨⟩⟩ := hcollects
    have hcopy := (Named.resolve_copyReference (o := ⟨home, node, isForeign⟩) hnamed).2
      (Library.resolve_place htarget path)
    rw [collect_of_reference (o := ⟨home, node, isForeign⟩) hkind, run_ofExcept_bind, hcopy]
    dsimp only
    rw [run_following, if_neg hkey, hbody]
    simp [Session.push, Session.pop]
  | @allOf home isForeign node nodes rest first others hkind _ _ ihFirst ihRest =>
    obtain ⟨hnode, hrest⟩ := clear_cons_iff.1 hclear
    obtain ⟨budget, groups, rfl, hcollects⟩ := ihFirst hnamed ((clear_allOf_iff hkind).1 hnode)
    refine exists_collects_cons ⟨budget + 1, fun path ↦ ?_⟩ (ihRest hnamed hrest)
    rw [collect_of_allOf (o := ⟨home, node, isForeign⟩) hkind]
    exact hcollects.members
  | @plain home isForeign node rest others hreference hallOf hunion _ ih =>
    obtain ⟨-, hrest⟩ := clear_cons_iff.1 hclear
    have hself : ∀ path, collect library 1 home path (Occurrence.copy ⟨home, node, isForeign⟩)
        session = some (.ok [(Occurrence.copy ⟨home, node, isForeign⟩).kind], session) := by
      intro path
      rw [collect_of_plain (o := ⟨home, node, isForeign⟩) hreference hallOf, hunion]
      rfl
    exact exists_collects_cons ⟨1, hself⟩ (ih hnamed hrest)

/-- Members are collected with some budget exactly if they yield the kinds and their ways are
clear. -/
theorem members_eq_ok_iff : (∃ budget, members (collect library budget) home path position nodes
      session = some (.ok kinds, session')) ↔
    Yields library home false nodes kinds ∧ Clear library session.chain home nodes ∧
      session' = session := by
  have hcopies : nodes.map (fun node ↦ Occurrence.copy ⟨home, node, false⟩) = nodes :=
    List.map_id nodes
  constructor
  · rintro ⟨budget, h⟩
    refine ⟨?_, fun node hnode keys last found hpasses ↦ ?_, ?_⟩
    · rw [← hcopies] at h
      exact yields_of_members (fun node _ _ _ _ hrun ↦
        yields_of_collect (o := ⟨home, node, false⟩) nofun hrun) h
    · obtain ⟨_, _, _, hrun⟩ := exists_ok_of_members (collect_static _ _) h hnode
      exact passes_of_collect (o := ⟨home, node, false⟩) nofun hrun hpasses
    · obtain ⟨rfl, -⟩ := (members_static (collect_static _ _) _ _ _ _).run_of_chain_eq h rfl
      rfl
  · rintro ⟨hyields, hclear, rfl⟩
    obtain ⟨budget, groups, rfl, hcollects⟩ := hyields.collects nofun hclear
    rw [← hcopies]
    exact ⟨budget, hcollects.members⟩

end Flatten

/-- The kinds that regular members are flattened to are regular. -/
theorem Library.IsRegular.members {library : Library} {document : Document}
    (h : library.IsRegular document) {budget position : Nat} {path : String}
    {members : List Node} {kinds : List Kind} {session session' : Session}
    (hmembers : ∀ member ∈ members, member.kind.Regular)
    (hflat : Flatten.members (Flatten.collect library budget) document path position members
      session = some (.ok kinds, session')) : ∀ kind ∈ kinds, kind.Regular := by
  obtain ⟨hyields, -⟩ := Flatten.members_eq_ok_iff.1 ⟨budget, hflat⟩
  exact hyields.regular h hmembers

/-- A composition merges with some budget exactly if its members yield kinds that merge and no way
from a member passes a key twice or one that is on the chain. -/
theorem mergeAllOf_eq_ok_iff {library : Library} {document : Document} {outer merged : Node}
    {members : List Node} {path : String} {session session' : Session} :
    (∃ budget, mergeAllOf library budget document outer members path session =
        some (.ok merged, session')) ↔
      ∃ kinds kind, Flatten.Yields library document false members kinds ∧
        Flatten.Clear library session.chain document members ∧ session' = session ∧
        mergeKinds path kinds = .ok kind ∧
        merged = .mk outer.title outer.description kind.withoutRequired := by
  constructor
  · rintro ⟨budget, h⟩
    obtain ⟨kinds, kind, hflat, hkind, heq⟩ := mergeAllOf_eq_ok.1 h
    obtain ⟨hyields, hclear, hsession⟩ := Flatten.members_eq_ok_iff.1 ⟨budget, hflat⟩
    exact ⟨kinds, kind, hyields, hclear, hsession, hkind, heq⟩
  · rintro ⟨kinds, kind, hyields, hclear, hsession, hkind, heq⟩
    obtain ⟨budget, hflat⟩ := Flatten.members_eq_ok_iff.2 ⟨hyields, hclear, hsession⟩
    exact ⟨budget, mergeAllOf_eq_ok.2 ⟨kinds, kind, hflat, hkind, heq⟩⟩

end SchemaBindings
