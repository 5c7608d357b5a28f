import SchemaBindings.Proofs.Merging
import SchemaBindings.Proofs.Relations

/-!
# Merging compositions

Merging the members of a composition reads nothing of the session but the chain of references and
leaves the session as it is. A shorter chain can only take failures away: a merge that succeeds
below some references succeeds in the same way below fewer of them. What it merges into is no
reference.
-/

namespace SchemaBindings

namespace Mapping

variable {α β : Type}

/-- The mapping changes no session, what comes of it depends on the chain alone, and it succeeds
below fewer references whenever it succeeds below more. -/
structure Static (mapping : Mapping α) : Prop where
  run_of_chain_eq : ∀ {session session' other : Session} {result : Except Failure α},
    mapping session = some (result, session') → other.chain = session.chain →
      session' = session ∧ mapping other = some (result, other)
  run_of_chain_subset : ∀ {session session' other : Session} {value : α},
    mapping session = some (.ok value, session') → other.chain ⊆ session.chain →
      mapping other = some (.ok value, other)

theorem static_ofExcept (result : Except Failure α) : Static (ofExcept result) where
  run_of_chain_eq {session session' other found} h _ := by
    rw [run_ofExcept] at h ⊢
    cases h
    exact ⟨rfl, rfl⟩
  run_of_chain_subset {session session' other value} h _ := by
    rw [run_ofExcept] at h ⊢
    cases h
    rfl

theorem static_exhausted : Static (exhausted : Mapping α) :=
  ⟨(nomatch ·), (nomatch ·)⟩

theorem Static.bind {mapping : Mapping α} {next : α → Mapping β} (h : Static mapping)
    (hnext : ∀ value, Static (next value)) : Static (mapping >>= next) where
  run_of_chain_eq {session session' other result} hrun hchain := by
    obtain ⟨value, between, hfirst, hsecond⟩ | ⟨failure, hfirst, rfl⟩ := bind_eq_some.1 hrun
    · obtain ⟨rfl, hother⟩ := h.run_of_chain_eq hfirst hchain
      obtain ⟨rfl, hlast⟩ := (hnext value).run_of_chain_eq hsecond hchain
      exact ⟨rfl, (run_bind_ok hother next).trans hlast⟩
    · obtain ⟨rfl, hother⟩ := h.run_of_chain_eq hfirst hchain
      exact ⟨rfl, run_bind_error hother next⟩
  run_of_chain_subset {session session' other value} hrun hchain := by
    obtain ⟨first, between, hfirst, hsecond⟩ | ⟨failure, -, hvalue⟩ := bind_eq_some.1 hrun
    · obtain ⟨rfl, -⟩ := h.run_of_chain_eq hfirst rfl
      have hother := h.run_of_chain_subset hfirst hchain
      exact (run_bind_ok hother next).trans ((hnext first).run_of_chain_subset hsecond hchain)
    · cases hvalue

theorem Static.following {body : Mapping α} (h : Static body) (key path : String) :
    Static (following key path body) where
  run_of_chain_eq {session session' other result} hrun hchain := by
    rw [run_following] at hrun ⊢
    rw [hchain]
    by_cases hkey : key ∈ session.chain
    · rw [if_pos hkey] at hrun ⊢
      cases hrun
      exact ⟨rfl, rfl⟩
    · rw [if_neg hkey] at hrun ⊢
      obtain ⟨⟨found, after⟩, hbody, heq⟩ := Option.map_eq_some_iff.1 hrun
      have hpush : (other.push key).chain = (session.push key).chain :=
        congrArg (key :: ·) hchain
      obtain ⟨rfl, hother⟩ := h.run_of_chain_eq hbody hpush
      cases heq
      exact ⟨rfl, by rw [hother]; rfl⟩
  run_of_chain_subset {session session' other value} hrun hchain := by
    by_cases hkey : key ∈ session.chain
    · rw [run_following, if_pos hkey] at hrun
      cases hrun
    · obtain ⟨after, hbody, -⟩ := following_eq_some hkey hrun
      have hpush : (other.push key).chain ⊆ (session.push key).chain :=
        List.cons_subset_cons key hchain
      rw [run_following, if_neg fun hother ↦ hkey (hchain hother),
        h.run_of_chain_subset hbody hpush]
      rfl

/-- As a relation, this asks nothing of the second mapping. -/
def stasis : Relation where
  holds mapping _ := Static mapping
  more := 0
  exhausted _ _ := static_exhausted
  faults _ := static_ofExcept _
  bind := .bind
  following := .following

end Mapping

open Mapping

namespace Flatten

theorem members_static {collect : Document → String → Node → Mapping (List Kind)}
    (h : ∀ document path node, Static (collect document path node)) (document : Document)
    (path : String) (position : Nat) (nodes : List Node) :
    Static (members collect document path position nodes) :=
  members_related stasis collect collect h document path position nodes

theorem collect_static (library : Library) (budget : Nat) (document : Document) (path : String)
    (node : Node) : Static (collect library budget document path node) :=
  collect_related stasis library budget document path node

end Flatten

theorem mergeAllOf_static (library : Library) (budget : Nat) (document : Document)
    (outer : Node) (members : List Node) (path : String) :
    Static (mergeAllOf library budget document outer members path) :=
  mergeAllOf_related stasis library budget document outer members path

/-! ## What compositions merge into -/

theorem Kind.merge_isReference {path : String} {left right merged : Kind}
    (h : Kind.merge path left right = .ok merged) (hleft : left.isReference = false)
    (hright : right.isReference = false) : merged.isReference = false := by
  obtain ⟨_, _, schema, _, _, _, rfl⟩ | ⟨_, _, item, _, _, _, rfl⟩ | hscalars :=
    Kind.merge_eq_ok h
  · rfl
  · rfl
  · obtain rfl | rfl | ⟨_, _, _, _, rfl⟩ := mergeScalars_eq_ok hscalars
    · exact hleft
    · exact hright
    · rfl

theorem mergeKinds_isReference {path : String} {kinds : List Kind} {merged : Kind}
    (h : mergeKinds path kinds = .ok merged) (hkinds : ∀ kind ∈ kinds, kind.isReference = false) :
    merged.isReference = false :=
  Failure.foldlM_induction (P := fun kind ↦ kind.isReference = false) rfl h
    fun kind hkind _ _ hsoFar hmerge ↦ Kind.merge_isReference hmerge hsoFar (hkinds kind hkind)

namespace Flatten

theorem members_isReference {collect : Document → String → Node → Mapping (List Kind)}
    (hcollect : ∀ {document path node session kinds session'},
      collect document path node session = some (.ok kinds, session') →
        ∀ kind ∈ kinds, kind.isReference = false)
    {document : Document} {path : String} {position : Nat} {nodes : List Node}
    {session session' : Session} {kinds : List Kind}
    (h : members collect document path position nodes session = some (.ok kinds, session')) :
    ∀ kind ∈ kinds, kind.isReference = false := by
  induction nodes generalizing position session kinds with
  | nil =>
    cases h
    exact fun _ hkind ↦ nomatch hkind
  | cons node rest ih =>
    obtain ⟨first, between, hfirst, hnext⟩ := bind_eq_ok.1 h
    obtain ⟨others, last, hothers, hpure⟩ := bind_eq_ok.1 hnext
    cases hpure
    intro kind hkind
    obtain hkind | hkind := List.mem_append.1 hkind
    · exact hcollect hfirst kind hkind
    · exact ih hothers kind hkind

/-- References of a composition are followed to what they lead to. -/
theorem collect_isReference {library : Library} {budget : Nat} {document : Document}
    {path : String} {node : Node} {session session' : Session} {kinds : List Kind}
    (h : collect library budget document path node session = some (.ok kinds, session')) :
    ∀ kind ∈ kinds, kind.isReference = false := by
  induction budget generalizing document path node session session' kinds with
  | zero => cases h
  | succ budget ih =>
    obtain ⟨title, description, kind⟩ := node
    cases kind with
    | reference target =>
      obtain ⟨target, between, -, hrest⟩ := bind_eq_ok.1 h
      obtain ⟨after, hbody, -⟩ := following_eq_ok hrest
      exact ih hbody
    | allOf nested => exact members_isReference ih h
    | oneOf => cases h
    | anyOf => cases h
    | _ =>
      cases h
      intro kind hkind
      cases List.mem_singleton.1 hkind
      rfl

end Flatten

/-- A composition never merges into a reference. -/
theorem mergeAllOf_isReference {library : Library} {budget : Nat} {document : Document}
    {outer merged : Node} {members : List Node} {path : String} {session session' : Session}
    (h : mergeAllOf library budget document outer members path session =
      some (.ok merged, session')) : merged.isReference = false := by
  obtain ⟨kinds, between, hkinds, hrest⟩ := bind_eq_ok.1 h
  obtain ⟨kind, last, hfound, hpure⟩ := bind_eq_ok.1 hrest
  obtain ⟨hkind, -⟩ := ofExcept_eq_ok.1 hfound
  cases hpure
  have hmerged := mergeKinds_isReference hkind
    (Flatten.members_isReference Flatten.collect_isReference hkinds)
  change kind.withoutRequired.isReference = false
  cases kind with
  | reference target => cases hmerged
  | object schema =>
    cases schema
    rfl
  | _ => rfl

end SchemaBindings
