import Mathlib.Logic.Relation
import SchemaBindings.Binding.Flatten
import SchemaBindings.Proofs.Mapping
import SchemaBindings.Proofs.Resolution

/-!
# Where merged schemas come from

While the members of a composition are flattened, references and nested compositions lead from
one schema to the next. Each schema met on the way stands somewhere in a document; what is looked
at is a copy of it, with its local references qualified if the last reference led out of a
document. All that a merged schema mentions is copied from a schema met in this way.
-/

namespace SchemaBindings

@[simp]
theorem Node.kind_qualify (uri : String) (node : Node) :
    (node.qualify uri).kind = node.kind.qualify uri := by
  obtain ⟨title, description, kind⟩ := node
  rfl

theorem Kind.qualify_eq_reference {uri copy : String} {kind : Kind}
    (h : kind.qualify uri = .reference copy) :
    ∃ reference, kind = .reference reference ∧ copy = qualifyReference uri reference := by
  cases kind with
  | reference target =>
    cases h
    exact ⟨target, rfl, rfl⟩
  | object schema =>
    obtain ⟨properties, required, additional, pattern⟩ := schema
    cases properties <;> cases additional <;> cases h
  | array items => cases items <;> cases h
  | _ => cases h

theorem Kind.qualify_eq_allOf {uri : String} {copies : List Node} {kind : Kind}
    (h : kind.qualify uri = .allOf copies) :
    ∃ nodes, kind = .allOf nodes ∧ copies = nodes.map (Node.qualify uri) := by
  cases kind with
  | allOf nodes =>
    cases h
    exact ⟨nodes, rfl, qualifyList_eq_map uri nodes⟩
  | object schema =>
    obtain ⟨properties, required, additional, pattern⟩ := schema
    cases properties <;> cases additional <;> cases h
  | array items => cases items <;> cases h
  | _ => cases h

/-- A schema as it is written in a document, and whether it was met from another document. -/
structure Occurrence where
  home : Document
  node : Node
  isForeign : Bool

namespace Occurrence

def copyReference (o : Occurrence) (reference : String) : String :=
  if o.isForeign then qualifyReference o.home.uri reference else reference

/-- What is looked at in place of the schema. -/
def copy (o : Occurrence) : Node :=
  if o.isForeign then o.node.qualify o.home.uri else o.node

theorem copy_eq_reference {o : Occurrence} {copied : String}
    (h : o.copy.kind = .reference copied) :
    ∃ reference, o.node.kind = .reference reference ∧ copied = o.copyReference reference := by
  obtain ⟨home, node, isForeign⟩ := o
  cases isForeign with
  | false => exact ⟨copied, h, rfl⟩
  | true => exact Kind.qualify_eq_reference ((Node.kind_qualify home.uri node).symm.trans h)

theorem copy_eq_allOf {o : Occurrence} {copies : List Node} (h : o.copy.kind = .allOf copies) :
    ∃ nodes, o.node.kind = .allOf nodes ∧
      copies = nodes.map fun node ↦ ({ o with node := node } : Occurrence).copy := by
  obtain ⟨home, node, isForeign⟩ := o
  cases isForeign with
  | false => exact ⟨copies, h, (List.map_id copies).symm⟩
  | true => exact Kind.qualify_eq_allOf ((Node.kind_qualify home.uri node).symm.trans h)

theorem mem_mentions_copy {o : Occurrence} {m : Mention} (h : m ∈ o.copy.mentions) :
    ∃ original ∈ o.node.mentions,
      m = if o.isForeign then original.qualify o.home.uri else original := by
  obtain ⟨home, node, isForeign⟩ := o
  cases isForeign with
  | false => exact ⟨m, h, rfl⟩
  | true =>
    have hmap : m ∈ node.mentions.map (Mention.qualify home.uri) :=
      Node.mentions_qualify home.uri node ▸ h
    obtain ⟨original, horiginal, rfl⟩ := List.mem_map.1 hmap
    exact ⟨original, horiginal, rfl⟩

theorem reference_of_copy {o : Occurrence} {copied : String}
    (h : .reference copied ∈ o.copy.mentions) :
    ∃ reference, .reference reference ∈ o.node.mentions ∧ copied = o.copyReference reference := by
  obtain ⟨original, horiginal, heq⟩ := mem_mentions_copy h
  cases original with
  | property name => split at heq <;> cases heq
  | reference reference =>
    refine ⟨reference, horiginal, ?_⟩
    unfold copyReference
    split at heq <;> cases heq
    · rw [if_pos ‹_›]
    · rw [if_neg ‹_›]

theorem property_of_copy {o : Occurrence} {name : String}
    (h : .property name ∈ o.copy.mentions) : .property name ∈ o.node.mentions := by
  obtain ⟨original, horiginal, heq⟩ := mem_mentions_copy h
  cases original with
  | property name => split at heq <;> cases heq <;> exact horiginal
  | reference reference => split at heq <;> cases heq

/-- One step from a schema to a schema that it is flattened to. -/
inductive Leads (library : Library) : Occurrence → Occurrence → Prop
  | reference {o : Occurrence} {reference place : String} {target : Target}
      (hkind : o.node.kind = .reference reference)
      (htarget : library.resolve o.home (o.copyReference reference) place = .ok target) :
      Leads library o ⟨target.owner, target.node, target.isExternal⟩
  | member {o : Occurrence} {nodes : List Node} {node : Node}
      (hkind : o.node.kind = .allOf nodes) (hnode : node ∈ nodes) :
      Leads library o { o with node := node }

def Reaches (library : Library) : Occurrence → Occurrence → Prop :=
  Relation.ReflTransGen (Leads library)

end Occurrence

namespace Flatten

open Mapping Occurrence

variable {library : Library}

theorem mem_of_members {collect : Document → String → Node → Mapping (List Kind)}
    {document : Document} {path : String} {position : Nat} {nodes : List Node}
    {session session' : Session} {kinds : List Kind} {kind : Kind}
    (h : members collect document path position nodes session = some (.ok kinds, session'))
    (hkind : kind ∈ kinds) :
    ∃ node ∈ nodes, ∃ path before after found,
      collect document path node before = some (.ok found, after) ∧ kind ∈ found := by
  induction nodes generalizing position session kinds with
  | nil =>
    cases h
    cases hkind
  | cons node rest ih =>
    obtain ⟨first, between, hfirst, hrest⟩ | ⟨failure, -, hvalue⟩ := bind_eq_some.1 h
    · obtain ⟨others, last, hothers, hpure⟩ | ⟨failure, -, hvalue⟩ := bind_eq_some.1 hrest
      · cases hpure
        obtain hleft | hright := List.mem_append.1 hkind
        · exact ⟨node, List.mem_cons_self, _, session, between, first, hfirst, hleft⟩
        · obtain ⟨other, hother, found⟩ := ih hothers hright
          exact ⟨other, List.mem_cons_of_mem _ hother, found⟩
      · cases hvalue
    · cases hvalue

/-- Every kind that is collected is the kind of a copy of a schema met on the way. -/
theorem exists_reaches_of_collect {budget : Nat} {path : String} {o : Occurrence}
    {session session' : Session} {kinds : List Kind} {kind : Kind}
    (h : collect library budget o.home path o.copy session = some (.ok kinds, session'))
    (hkind : kind ∈ kinds) : ∃ o', Reaches library o o' ∧ o'.copy.kind = kind := by
  induction budget generalizing path o session session' kinds with
  | zero => cases h
  | succ budget ih =>
    obtain ⟨copy, hcopy⟩ : ∃ copy, o.copy = copy := ⟨o.copy, rfl⟩
    rw [hcopy] at h
    obtain ⟨title, description, copied⟩ := copy
    have hcopied : o.copy.kind = copied := congrArg Node.kind hcopy
    have hself : kinds = [copied] → ∃ o', Reaches library o o' ∧ o'.copy.kind = kind := by
      rintro rfl
      rw [List.mem_singleton] at hkind
      exact ⟨o, .refl, hcopied.trans hkind.symm⟩
    cases copied with
    | reference copied =>
      obtain ⟨reference, hreference, rfl⟩ := copy_eq_reference hcopied
      obtain ⟨target, between, hresolve, hfollowing⟩ | ⟨failure, -, hvalue⟩ := bind_eq_some.1 h
      · rw [run_ofExcept] at hresolve
        obtain ⟨htarget, rfl⟩ := Prod.mk.inj (Option.some.inj hresolve)
        by_cases hkey : target.key ∈ session.chain
        · rw [run_following, if_pos hkey] at hfollowing
          cases hfollowing
        · obtain ⟨after, hbody, -⟩ := following_eq_some hkey hfollowing
          obtain ⟨o', hreaches, hcopy⟩ :=
            ih (o := ⟨target.owner, target.node, target.isExternal⟩) hbody hkind
          exact ⟨o', .head (.reference hreference htarget) hreaches, hcopy⟩
      · cases hvalue
    | allOf copies =>
      obtain ⟨nodes, hnodes, rfl⟩ := copy_eq_allOf hcopied
      obtain ⟨copy, hcopy, path, before, after, found, hfound, hmem⟩ := mem_of_members h hkind
      obtain ⟨node, hnode, rfl⟩ := List.mem_map.1 hcopy
      obtain ⟨o', hreaches, hcopy⟩ := ih (o := { o with node := node }) hfound hmem
      exact ⟨o', .head (.member hnodes hnode) hreaches, hcopy⟩
    | oneOf members => cases h
    | anyOf members => cases h
    | _ => cases h; exact hself rfl

end Flatten

open Mapping in
/-- A composition is merged if its members are flattened and the kinds are merged. -/
theorem mergeAllOf_eq_ok {library : Library} {budget : Nat} {document : Document}
    {outer merged : Node} {members : List Node} {path : String} {session session' : Session} :
    mergeAllOf library budget document outer members path session =
        some (.ok merged, session') ↔
      ∃ kinds kind, Flatten.members (Flatten.collect library budget) document
          (Pointer.child path "allOf") 0 members session = some (.ok kinds, session') ∧
        mergeKinds path kinds = .ok kind ∧
        merged = .mk outer.title outer.description kind.withoutRequired := by
  unfold mergeAllOf
  constructor
  · intro h
    obtain ⟨kinds, between, hkinds, hrest⟩ := bind_eq_ok.1 h
    obtain ⟨kind, after, hfound, hpure⟩ := bind_eq_ok.1 hrest
    obtain ⟨hkind, rfl⟩ := ofExcept_eq_ok.1 hfound
    cases hpure
    exact ⟨kinds, kind, hkinds, hkind, rfl⟩
  · rintro ⟨kinds, kind, hkinds, hkind, rfl⟩
    exact bind_eq_ok.2 ⟨kinds, session', hkinds,
      bind_eq_ok.2 ⟨kind, session', ofExcept_eq_ok.2 ⟨hkind, rfl⟩, rfl⟩⟩

/-- All that a merged composition mentions is copied from a schema that its members lead to. -/
theorem exists_reaches_of_mergeAllOf {library : Library} {budget : Nat} {document : Document}
    {outer merged : Node} {members : List Node} {path : String} {session session' : Session}
    (h : mergeAllOf library budget document outer members path session =
      some (.ok merged, session')) {m : Mention} (hm : m ∈ merged.mentions) :
    ∃ member ∈ members, ∃ o, Occurrence.Reaches library ⟨document, member, false⟩ o ∧
      m ∈ o.copy.mentions := by
  obtain ⟨kinds, kind, hkinds, hkind, rfl⟩ := mergeAllOf_eq_ok.1 h
  have hwith : m ∈ kind.mentions := Kind.mentions_withoutRequired kind ▸ hm
  obtain ⟨found, hfound, hmentioned⟩ := mem_mentions_mergeKinds hkind hwith
  obtain ⟨member, hmember, _, _, _, list, hcollect, hlist⟩ := Flatten.mem_of_members hkinds hfound
  obtain ⟨o, hreaches, hcopy⟩ :=
    Flatten.exists_reaches_of_collect (o := ⟨document, member, false⟩) hcollect hlist
  refine ⟨member, hmember, o, hreaches, ?_⟩
  rw [← hcopy, ← Node.mentions_eq] at hmentioned
  exact hmentioned

end SchemaBindings
