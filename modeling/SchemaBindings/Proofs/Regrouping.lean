import SchemaBindings.Proofs.Congruence
import SchemaBindings.Proofs.Flattening
import SchemaBindings.Proofs.Pointers

/-!
# Grouping members

Members of a composition can be grouped into a nested composition, and a member can be replaced by
a reference to a definition that says the same, without a change to what is merged. Both ways of
writing the members flatten to kinds that are the same. That a reference adds a key to the chain
does no harm, since a way from the definition that passes this key comes back to the definition,
and could be gone twice.
-/

namespace SchemaBindings

open Mapping

section Members

variable {library : Library} {document home : Document} {chain : List String}
  {node node' : Node} {nodes nodes' : List Node} {kinds : List Kind}

/-- Two ways of writing members of a composition in a document. The second way has a nested
composition for some of them, or a reference to a definition that is the same as one of them and
that is not being followed. -/
inductive Regroups (library : Library) (document : Document) (chain : List String) :
    List Node → List Node → Prop
  | group {node : Node} {block : List Node} (hkind : node.kind = .allOf block) :
      Regroups library document chain block [node]
  | refer {member referring definition : Node} {reference name : String}
      (hkind : referring.kind = .reference reference)
      (hplace : library.place? document reference =
        some (document, document.definitionRef name))
      (hdefinition : Table.get? name document.definitions = some definition)
      (hsame : member.same definition)
      (hkey : document.uri ++ document.definitionRef name ∉ chain) :
      Regroups library document chain [member] [referring]
  | inside {node node' : Node} {nodes nodes' : List Node} (hkind : node.kind = .allOf nodes)
      (hkind' : node'.kind = .allOf nodes') (h : Regroups library document chain nodes nodes') :
      Regroups library document chain [node] [node']
  | within {nodes nodes' : List Node} (before after : List Node)
      (h : Regroups library document chain nodes nodes') :
      Regroups library document chain (before ++ nodes ++ after) (before ++ nodes' ++ after)

/-! ## Schemas that are the same -/

namespace Kind

variable {left right : Kind} {r : Node → Node → Prop}

theorem Matches.eq_reference_iff (h : left.Matches r right) (reference : String) :
    left = .reference reference ↔ right = .reference reference := by
  cases h with
  | reference => exact Iff.rfl
  | _ => exact ⟨(nomatch ·), (nomatch ·)⟩

theorem Matches.exists_allOf (h : left.Matches r right) (hleft : left = .allOf nodes) :
    ∃ nodes', right = .allOf nodes' ∧ List.Forall₂ r nodes nodes' := by
  cases h with
  | allOf hnodes =>
    cases hleft
    exact ⟨_, rfl, hnodes⟩
  | _ => cases hleft

theorem Matches.exists_allOf_left (h : left.Matches r right) (hright : right = .allOf nodes') :
    ∃ nodes, left = .allOf nodes := by
  cases h with
  | allOf => exact ⟨_, rfl⟩
  | _ => cases hright

theorem Matches.isUnion_eq (h : left.Matches r right) : left.isUnion = right.isUnion := by
  cases h <;> rfl

end Kind

theorem Node.matches_of_same (hnode : node.kind.Regular) (h : node.same node') :
    node.kind.Matches (fun a b ↦ a.same b) node'.kind :=
  Kind.matches_of_same hnode.here (Node.same_iff.1 h).2.2

namespace Flatten

/-- Schemas that are the same flatten to kinds that are the same. -/
theorem Yields.same (h : Yields library document false nodes kinds)
    (hlibrary : library.IsRegular document) (hnodes : ∀ node ∈ nodes, node.kind.Regular)
    (hsame : List.Forall₂ (fun a b ↦ a.same b) nodes nodes') :
    ∃ kinds', Yields library document false nodes' kinds' ∧
      List.Forall₂ (fun a b ↦ a.same b) kinds kinds' := by
  generalize hforeign : false = isForeign at h ⊢
  induction h generalizing nodes' with
  | nil =>
    cases hsame
    exact ⟨[], .nil, .nil⟩
  | @reference _ _ _ _ reference _ _ first _ hkind htarget hfirst _ _ ihRest =>
    obtain _ | ⟨hnode, hrest⟩ := hsame
    obtain ⟨hregular, hothers⟩ := List.forall_mem_cons.1 hnodes
    obtain ⟨kinds', hyields, hall⟩ := ihRest hlibrary hothers hrest hforeign
    obtain ⟨howner, htargetNode⟩ := hlibrary.resolve htarget
    have hfirstRegular := hfirst.regular howner (List.forall_mem_singleton.2 htargetNode)
    have hkind' := ((Node.matches_of_same hregular hnode).eq_reference_iff reference).1 hkind
    exact ⟨first ++ kinds', .reference hkind' htarget hfirst hyields,
      List.rel_append (List.forall₂_same.2 fun kind hkind ↦ (hfirstRegular kind hkind).same_refl)
        hall⟩
  | allOf hkind _ _ ihFirst ihRest =>
    obtain _ | ⟨hnode, hrest⟩ := hsame
    obtain ⟨hregular, hothers⟩ := List.forall_mem_cons.1 hnodes
    obtain ⟨members', hkind', hmembers⟩ := (Node.matches_of_same hregular hnode).exists_allOf hkind
    obtain ⟨first', hyieldsFirst, hallFirst⟩ := ihFirst hlibrary
      (fun member hmember ↦ hregular.inside (by rw [hkind]; exact hmember)) hmembers hforeign
    obtain ⟨others', hyields, hall⟩ := ihRest hlibrary hothers hrest hforeign
    exact ⟨first' ++ others', .allOf hkind' hyieldsFirst hyields, List.rel_append hallFirst hall⟩
  | plain hreference hallOf hunion _ ih =>
    obtain _ | ⟨hnode, hrest⟩ := hsame
    obtain ⟨hregular, hothers⟩ := List.forall_mem_cons.1 hnodes
    obtain ⟨kinds', hyields, hall⟩ := ih hlibrary hothers hrest hforeign
    subst hforeign
    have hmatches := Node.matches_of_same hregular hnode
    refine ⟨_, .plain (fun reference hkind' ↦ ?_) (fun nodes hkind' ↦ ?_) ?_ hyields,
      .cons (Node.same_iff.1 hnode).2.2 hall⟩
    · exact hreference reference ((hmatches.eq_reference_iff reference).2 hkind')
    · obtain ⟨members, hkind⟩ := hmatches.exists_allOf_left hkind'
      exact hallOf members hkind
    · exact hmatches.isUnion_eq ▸ hunion

end Flatten

/-- Schemas that are the same pass the same keys. -/
theorem Passes.of_same {keys : List String} {last : Document} {found : Node}
    (h : Passes library home node keys last found) (hnode : node.kind.Regular)
    (hsame : node.same node') : ∃ last' found', Passes library home node' keys last' found' := by
  induction h generalizing node' with
  | here => exact ⟨_, node', .here⟩
  | reference hkind htarget hrest _ =>
    have hkind' := ((Node.matches_of_same hnode hsame).eq_reference_iff _).1 hkind
    exact ⟨_, _, .reference hkind' htarget hrest⟩
  | member hkind hmember _ ih =>
    obtain ⟨nodes', hkind', hall⟩ := (Node.matches_of_same hnode hsame).exists_allOf hkind
    obtain ⟨member', hmember', hsameMember⟩ := exists_of_mem_forall₂ hall.flip hmember
    obtain ⟨last', found', hpasses⟩ :=
      ih (hnode.inside (by rw [hkind]; exact hmember)) hsameMember
    exact ⟨last', found', .member hkind' hmember' hpasses⟩

theorem Flatten.Clear.of_same (h : Clear library chain home [node]) (hnode' : node'.kind.Regular)
    (hsame : node'.same node) : Clear library chain home [node'] := by
  rw [clear_singleton_iff] at h ⊢
  intro keys last' found' hpasses
  obtain ⟨last, found, hpasses⟩ := hpasses.of_same hnode' hsame
  exact h keys last found hpasses

theorem Passes.trans {keys keys' : List String} {between last : Document} {found found' : Node}
    (h : Passes library home node keys between found)
    (h' : Passes library between found keys' last found') :
    Passes library home node (keys ++ keys') last found' := by
  induction h with
  | here => exact h'
  | member hkind hmember _ ih => exact .member hkind hmember (ih h')
  | reference hkind htarget _ ih => exact .reference hkind htarget (ih h')

/-! ## Keys of a document -/

/-- References from a document lead to this document or to another one of the library, which is
found by the text before a fragment. -/
def Library.Finds (library : Library) (document home : Document) : Prop :=
  home = document ∨ (library.get? home.uri = some home ∧ '#' ∉ home.uri.toList)

theorem Library.Finds.resolve (h : library.Finds document home) {reference place : String}
    {target : Target} (htarget : library.resolve home reference place = .ok target) :
    library.Finds document target.owner := by
  obtain ⟨fragment, -, hplace, -, -, -, hexternal, -⟩ := Library.resolve_eq_ok htarget
  obtain hsame | ⟨hget, hne⟩ := Library.owner_of_place? hplace
  · exact hsame ▸ h
  · exact .inr ⟨hget, (Occurrence.named_of_resolve htarget (hexternal ▸ decide_eq_true hne)).2⟩

/-- The key of a place in the document is the key of no other place. -/
theorem Library.Finds.eq_of_key (hhome : library.Finds document home)
    (huri : '#' ∉ document.uri.toList)
    (honly : ∀ other, library.get? document.uri = some other → other = document)
    {reference place reference' place' : String} {target target' : Target}
    (htarget : library.resolve home reference place = .ok target)
    (htarget' : library.resolve document reference' place' = .ok target')
    (howner' : target'.owner = document) (hkey : target.key = target'.key) :
    target.owner = document ∧ target.node = target'.node := by
  have hfinds := hhome.resolve htarget
  obtain ⟨fragment, value, hplace, hvalue, hread, -, -, hkeyed, -⟩ := Library.resolve_eq_ok htarget
  obtain ⟨fragment', value', hplace', hvalue', hread', -, -, hkeyed', -⟩ :=
    Library.resolve_eq_ok htarget'
  have hlocal : isLocal fragment :=
    Library.fragment_of_place? hplace ▸ isLocal_splitReference reference
  have hlocal' : isLocal fragment' :=
    Library.fragment_of_place? hplace' ▸ isLocal_splitReference reference'
  have hhash : '#' ∉ target.owner.uri.toList := by
    obtain heq | ⟨-, hhash⟩ := hfinds
    · exact heq ▸ huri
    · exact hhash
  -- neither URI has the mark that a fragment starts with, so the key splits in one way
  have hsplit : (target.owner.uri, fragment) = (document.uri, fragment') := by
    rw [← splitReference_qualified hhash hlocal, ← splitReference_qualified huri hlocal',
      ← hkeyed, hkey, hkeyed', howner']
  obtain ⟨hsameUri, rfl⟩ := Prod.mk.inj hsplit
  have howner : target.owner = document := by
    obtain heq | ⟨hget, -⟩ := hfinds
    · exact heq
    · exact honly _ (hsameUri ▸ hget)
  rw [howner] at hvalue hread
  rw [howner'] at hvalue' hread'
  cases hvalue.symm.trans hvalue'
  exact ⟨howner, Except.ok.inj (hread.symm.trans hread')⟩

/-- A way that passes a key goes on from the target of this key. -/
theorem Passes.exists_target {keys : List String} {key : String} {last : Document} {found : Node}
    (h : Passes library home node keys last found) (hhome : library.Finds document home)
    (hkey : key ∈ keys) : ∃ before current reference place target,
      library.Finds document current ∧ library.resolve current reference place = .ok target ∧
      target.key = key ∧
      Passes library home node (before ++ [key]) target.owner target.node := by
  induction h with
  | here => cases hkey
  | member hkind hmember _ ih =>
    obtain ⟨before, current, reference, place, target, hcurrent, htarget, hfound, hpasses⟩ :=
      ih hhome hkey
    exact ⟨before, current, reference, place, target, hcurrent, htarget, hfound,
      .member hkind hmember hpasses⟩
  | @reference _ _ _ _ written place first _ hkind hfirst _ ih =>
    obtain _ | ⟨_, hrest⟩ := hkey
    · exact ⟨[], _, written, place, first, hhome, hfirst, rfl, .reference hkind hfirst .here⟩
    · obtain ⟨before, current, reference, place, target, hcurrent, htarget, hfound, hpasses⟩ :=
        ih (hhome.resolve hfirst) hrest
      exact ⟨first.key :: before, current, reference, place, target, hcurrent, htarget, hfound,
        .reference hkind hfirst hpasses⟩

/-- Where the ways from a schema of the document pass no key twice, none of them passes the key of
the schema itself. -/
theorem Flatten.Clear.push (huri : '#' ∉ document.uri.toList)
    (honly : ∀ other, library.get? document.uri = some other → other = document)
    {reference place : String} {target : Target}
    (htarget : library.resolve document reference place = .ok target)
    (howner : target.owner = document) (h : Clear library chain document [target.node]) :
    Clear library (target.key :: chain) document [target.node] := by
  rw [clear_singleton_iff] at h ⊢
  intro keys last found hpasses
  obtain ⟨hnodup, hnew⟩ := h keys last found hpasses
  refine ⟨hnodup, fun key hmem ↦ ?_⟩
  rw [List.mem_cons, not_or]
  refine ⟨?_, hnew key hmem⟩
  rintro rfl
  obtain ⟨before, current, _, _, target', hcurrent, htarget', hkey, hback⟩ :=
    hpasses.exists_target (.inl rfl) hmem
  obtain ⟨howner', hnode⟩ := hcurrent.eq_of_key huri honly htarget' htarget howner hkey
  rw [howner', hnode] at hback
  -- the way comes back to where it starts, so it can be gone once more
  have htwice := (h _ _ _ (hback.trans hback)).1
  exact (List.nodup_append.1 htwice).2.2 target.key (by simp) target.key (by simp) rfl

theorem Flatten.Clear.mono {fewer : List String} (h : Clear library chain home nodes)
    (hsubset : fewer ⊆ chain) : Clear library fewer home nodes := by
  intro node hnode keys last found hpasses
  obtain ⟨hnodup, hnew⟩ := h node hnode keys last found hpasses
  exact ⟨hnodup, fun key hkey hmem ↦ hnew key hkey (hsubset hmem)⟩

/-! ## What regrouping keeps -/

/-- What the first schemas yield is yielded by the others, up to equality. -/
def Flatten.Covers (library : Library) (document : Document) (nodes nodes' : List Node) : Prop :=
  ∀ kinds, Yields library document false nodes kinds →
    ∃ kinds', Yields library document false nodes' kinds' ∧
      List.Forall₂ (fun a b ↦ a.same b) kinds kinds'

namespace Flatten

theorem Covers.of_imp (hlibrary : library.IsRegular document)
    (hnodes : ∀ node ∈ nodes, node.kind.Regular)
    (h : ∀ kinds, Yields library document false nodes kinds →
      Yields library document false nodes' kinds) : Covers library document nodes nodes' :=
  fun kinds hyields ↦ ⟨kinds, h kinds hyields, List.forall₂_same.2 fun kind hkind ↦
    (hyields.regular hlibrary hnodes kind hkind).same_refl⟩

theorem Covers.append (h : Covers library document nodes nodes') {others others' : List Node}
    (h' : Covers library document others others') :
    Covers library document (nodes ++ others) (nodes' ++ others') := by
  intro kinds hyields
  obtain ⟨first, second, rfl, hfirst, hsecond⟩ := yields_append_iff.1 hyields
  obtain ⟨first', hfirst', hall⟩ := h first hfirst
  obtain ⟨second', hsecond', hall'⟩ := h' second hsecond
  exact ⟨first' ++ second', hfirst'.append hsecond', List.rel_append hall hall'⟩

theorem Covers.inside (hkind : node.kind = .allOf nodes) (hkind' : node'.kind = .allOf nodes')
    (h : Covers library document nodes nodes') : Covers library document [node] [node'] := by
  intro kinds hyields
  obtain ⟨kinds', hyields', hall⟩ := h kinds ((yields_allOf_iff hkind).1 hyields)
  exact ⟨kinds', (yields_allOf_iff hkind').2 hyields', hall⟩

end Flatten

open Flatten

/-- Both ways of writing the members yield the same, and both are clear if one of them is. -/
theorem Regroups.agrees {content : Json} (h : Regroups library document chain nodes nodes')
    (hread : Document.read content = .ok document) (hlibrary : library.IsRegular document)
    (huri : '#' ∉ document.uri.toList)
    (honly : ∀ other, library.get? document.uri = some other → other = document)
    (hnodes : ∀ node ∈ nodes, node.kind.Regular) (hnodes' : ∀ node ∈ nodes', node.kind.Regular) :
    Covers library document nodes nodes' ∧ Covers library document nodes' nodes ∧
      (Clear library chain document nodes ↔ Clear library chain document nodes') := by
  induction h with
  | group hkind =>
    exact ⟨.of_imp hlibrary hnodes fun _ ↦ (yields_allOf_iff hkind).2,
      .of_imp hlibrary hnodes' fun _ ↦ (yields_allOf_iff hkind).1, (clear_allOf_iff hkind).symm⟩
  | @refer member referring definition reference name hkind hplace hdefinition hsame hkey =>
    rw [List.forall_mem_singleton] at hnodes
    obtain ⟨target, htarget, howner, rfl, hinternal, htargetKey⟩ :=
      Document.resolve_definition hread hplace hdefinition ""
    have hyields : ∀ kinds, Yields library document false [referring] kinds ↔
        Yields library document false [target.node] kinds := by
      intro kinds
      rw [yields_reference_iff hkind htarget, howner, hinternal]
    have hdefinitionRegular := (hlibrary.resolve htarget).2
    have hback : target.node.same member := Node.same_symm hnodes hsame
    refine ⟨fun kinds h ↦ ?_, fun kinds h ↦ ?_, ?_⟩
    · obtain ⟨kinds', hkinds', hall⟩ := h.same hlibrary (List.forall_mem_singleton.2 hnodes)
        (.cons hsame .nil)
      exact ⟨kinds', (hyields kinds').2 hkinds', hall⟩
    · exact ((hyields kinds).1 h).same hlibrary (List.forall_mem_singleton.2 hdefinitionRegular)
        (.cons hback .nil)
    · rw [clear_reference_iff hkind htarget, howner, htargetKey]
      constructor
      · intro h
        have hclear := h.of_same hdefinitionRegular hback
        exact ⟨hkey, htargetKey ▸ hclear.push huri honly htarget howner⟩
      · rintro ⟨-, h⟩
        exact (h.mono fun _ ↦ List.mem_cons_of_mem _).of_same hnodes hsame
  | @inside node node' nodes nodes' hkind hkind' _ ih =>
    rw [List.forall_mem_singleton] at hnodes hnodes'
    obtain ⟨hcovers, hcovers', hclear⟩ := ih
      (fun member hmember ↦ hnodes.inside (by rw [hkind]; exact hmember))
      (fun member hmember ↦ hnodes'.inside (by rw [hkind']; exact hmember))
    refine ⟨hcovers.inside hkind hkind', hcovers'.inside hkind' hkind, ?_⟩
    rw [clear_allOf_iff hkind, clear_allOf_iff hkind', hclear]
  | within before after _ ih =>
    simp only [List.forall_mem_append] at hnodes hnodes'
    obtain ⟨⟨hbefore, hmiddle⟩, hafter⟩ := hnodes
    obtain ⟨hcovers, hcovers', hclear⟩ := ih hmiddle hnodes'.1.2
    have hkeepBefore : Covers library document before before := .of_imp hlibrary hbefore fun _ ↦ id
    have hkeepAfter : Covers library document after after := .of_imp hlibrary hafter fun _ ↦ id
    refine ⟨(hkeepBefore.append hcovers).append hkeepAfter,
      (hkeepBefore.append hcovers').append hkeepAfter, ?_⟩
    simp only [clear_append_iff, hclear]

/-- Of two lists of members that cover each other and are clear together, one merges if the other
does. -/
theorem Flatten.Covers.merges (hcovers : Covers library document nodes nodes')
    {session session' : Session}
    (hclear : Clear library session.chain document nodes →
      Clear library session.chain document nodes')
    (hlibrary : library.IsRegular document) (hnodes : ∀ node ∈ nodes, node.kind.Regular)
    (hnodes' : ∀ node ∈ nodes', node.kind.Regular) {outer merged : Node} {path : String}
    (h : ∃ budget, mergeAllOf library budget document outer nodes path session =
      some (.ok merged, session')) :
    ∃ merged', (∃ budget, mergeAllOf library budget document outer nodes' path session =
      some (.ok merged', session')) ∧ merged.same merged' := by
  obtain ⟨kinds, kind, hyields, hways, hsession, hkind, rfl⟩ := mergeAllOf_eq_ok_iff.1 h
  obtain ⟨kinds', hyields', hall⟩ := hcovers kinds hyields
  obtain ⟨kind', hkind', hsame⟩ := mergeKinds_same (hyields.regular hlibrary hnodes)
    (hyields'.regular hlibrary hnodes') hall hkind
  refine ⟨_, mergeAllOf_eq_ok_iff.2
    ⟨kinds', kind', hyields', hclear hways, hsession, hkind', rfl⟩, ?_⟩
  exact Node.same_iff.2 ⟨rfl, rfl, Kind.withoutRequired_same hsame⟩

/-- Members can be grouped into a nested composition, and a member can be replaced by a reference
to a definition of the document that is the same, at any depth and from either way of writing to
the other: if the members merge they still do, to the same schema. The document is named by a URI
without the mark that fragments start with, and no other document of the library is. -/
theorem mergeAllOf_regroup {content : Json} {members members' : List Node} {session : Session}
    (hread : Document.read content = .ok document) (hlibrary : library.IsRegular document)
    (huri : '#' ∉ document.uri.toList)
    (honly : ∀ other, library.get? document.uri = some other → other = document)
    (hmembers : ∀ member ∈ members, member.kind.Regular)
    (hmembers' : ∀ member ∈ members', member.kind.Regular)
    (h : Regroups library document session.chain members members') (outer : Node) (path : String)
    (session' : Session) :
    (∀ merged, (∃ budget, mergeAllOf library budget document outer members path session =
        some (.ok merged, session')) →
      ∃ merged', (∃ budget, mergeAllOf library budget document outer members' path session =
        some (.ok merged', session')) ∧ merged.same merged') ∧
    ∀ merged', (∃ budget, mergeAllOf library budget document outer members' path session =
        some (.ok merged', session')) →
      ∃ merged, (∃ budget, mergeAllOf library budget document outer members path session =
        some (.ok merged, session')) ∧ merged'.same merged := by
  obtain ⟨hcovers, hcovers', hclear⟩ := h.agrees hread hlibrary huri honly hmembers hmembers'
  constructor
  · exact fun merged ↦ hcovers.merges hclear.1 hlibrary hmembers hmembers'
  · exact fun merged' ↦ hcovers'.merges hclear.2 hlibrary hmembers' hmembers

end Members

namespace Oven

def objectOf (name : String) : Node :=
  .ofKind (.object (.mk (some [(name, .ofKind (.primitive .boolean none))]) none none false))

def content : Json := .object [("title", .string "Oven"), ("definitions", .object [
  ("Door", .object [("type", .string "object"), ("properties", .object [
    ("open", .object [("type", .string "boolean")])])])])]

theorem isSome_read : (Document.read content).toOption.isSome := by decide +kernel

def oven : Document := (Document.read content).toOption.get isSome_read

theorem read_oven : Document.read content = .ok oven := eq_ok_get isSome_read

def library : Library := ⟨[oven]⟩

/-- The door is described in place. -/
def described : List Node := [objectOf "light", .ofKind (.allOf [objectOf "open"])]

/-- The door is a definition. -/
def referring : List Node :=
  [objectOf "light", .ofKind (.allOf [.ofKind (.reference (oven.definitionRef "Door"))])]

theorem regroups : Regroups library oven [] described referring := by
  have hsame : (Table.get? "Door" oven.definitions).any (objectOf "open").same := by
    decide +kernel
  obtain ⟨door, hdefinition, hsame⟩ := (Option.any_eq_true _ _).1 hsame
  have hdoor : Regroups library oven [] [objectOf "open"]
      [.ofKind (.reference (oven.definitionRef "Door"))] :=
    .refer rfl (Document.place?_definitionRef read_oven "Door") hdefinition hsame
      List.not_mem_nil
  exact .within [objectOf "light"] [] (.inside rfl rfl hdoor)

theorem isRegular : library.IsRegular oven := by
  have hcontent : oven.content.Distinct := by
    rw [(Document.read_eq_ok read_oven).2.2.2]
    simp [content, Table.keys]
  exact ⟨hcontent, List.forall_mem_singleton.2 hcontent⟩

theorem regular_objectOf (name : String) : (objectOf name).kind.Regular :=
  .intro (List.nodup_singleton _) (List.forall_mem_singleton.2 (.of_leaf trivial rfl))

theorem regular_reference {reference : String} :
    (Node.ofKind (.reference reference)).kind.Regular :=
  .of_leaf trivial rfl

theorem regular_members {door : Node} (h : door.kind.Regular) :
    ∀ member ∈ [objectOf "light", .ofKind (.allOf [door])], member.kind.Regular :=
  List.forall_mem_cons.2 ⟨regular_objectOf _,
    List.forall_mem_singleton.2 (.intro trivial (List.forall_mem_singleton.2 h))⟩

def outer : Node := .mk (some "Oven") none (.allOf described)

/-- What merges with the door in place merges with a reference to it. -/
theorem door_is_referred_to :
    '#' ∉ oven.uri.toList ∧ Regroups library oven [] described referring ∧
      ∃ merged merged' budget,
        mergeAllOf library 3 oven outer described "Oven#/s" {} = some (.ok merged, {}) ∧
        mergeAllOf library budget oven outer referring "Oven#/s" {} = some (.ok merged', {}) ∧
          merged.same merged' := by
  have huri : '#' ∉ oven.uri.toList := by decide +kernel
  have honly : ∀ other, library.get? oven.uri = some other → other = oven :=
    fun other h ↦ List.mem_singleton.1 (Library.mem_of_get? h)
  obtain ⟨merged, hmerged⟩ : ∃ merged,
      mergeAllOf library 3 oven outer described "Oven#/s" {} = some (.ok merged, {}) := ⟨_, rfl⟩
  obtain ⟨hforth, -⟩ := @mergeAllOf_regroup library oven content described referring {}
    read_oven isRegular huri honly (regular_members (regular_objectOf _))
    (regular_members regular_reference) regroups outer "Oven#/s" {}
  obtain ⟨merged', ⟨budget, hmerged'⟩, hsame⟩ := hforth merged ⟨3, hmerged⟩
  exact ⟨huri, regroups, merged, merged', budget, hmerged, hmerged', hsame⟩

end Oven

namespace SharedKey

def content : Json := .object [("$id", .string "U#/a"), ("title", .string "M"),
  ("definitions", .object [("X", .object [("$ref", .string "U#/a#/definitions/X")])])]

def otherContent : Json := .object [("$id", .string "U"), ("title", .string "U"),
  ("a#", .object [("definitions", .object [("X", .object [("type", .string "string")])])])]

theorem isSome_read : (Document.read content).toOption.isSome := by decide +kernel

theorem isSome_read_other : (Document.read otherContent).toOption.isSome := by decide +kernel

def marked : Document := (Document.read content).toOption.get isSome_read

def other : Document := (Document.read otherContent).toOption.get isSome_read_other

theorem read_marked : Document.read content = .ok marked := eq_ok_get isSome_read

def library : Library := ⟨[marked, other]⟩

/-- The reference leads to a text in the other document. -/
def member : Node := .ofKind (.reference "U#/a#/definitions/X")

def referring : Node := .ofKind (.reference (marked.definitionRef "X"))

def outer : Node := .ofKind (.allOf [referring])

theorem exists_definition : ∃ definition,
    Table.get? "X" marked.definitions = some definition ∧ member.same definition := by
  have hany : (Table.get? "X" marked.definitions).any member.same := by decide +kernel
  exact (Option.any_eq_true _ _).1 hany

theorem regroups : Regroups library marked [] [member] [referring] := by
  obtain ⟨definition, hdefinition, hsame⟩ := exists_definition
  exact .refer rfl (Document.place?_definitionRef read_marked "X") hdefinition hsame
    List.not_mem_nil

/-- The definition and the text that it refers to have the same key. -/
theorem passes_twice : ∃ key last found,
    Passes library marked referring [key, key] last found := by
  obtain ⟨definition, hdefinition, hsame⟩ := exists_definition
  obtain ⟨target, htarget, howner, rfl, -, hkey⟩ := Document.resolve_definition read_marked
    (Document.place?_definitionRef read_marked "X") hdefinition ""
  have hregular : member.kind.Regular := .of_leaf trivial rfl
  have hkind : target.node.kind = .reference "U#/a#/definitions/X" :=
    ((Node.matches_of_same hregular hsame).eq_reference_iff _).1 rfl
  have hany : (library.resolve marked "U#/a#/definitions/X" "").toOption.any
      (·.key = marked.uri ++ marked.definitionRef "X") := by decide +kernel
  obtain ⟨text, htext, hsameKey⟩ := Failure.any_toOption.1 hany
  have hkeys : text.key = target.key := (of_decide_eq_true hsameKey).trans hkey.symm
  refine ⟨target.key, text.owner, text.node, .reference rfl htarget ?_⟩
  rw [howner, ← hkeys]
  exact .reference hkind htext .here

/-- A reference to a definition looks like a cycle, because the text that the definition refers to
has its key as well. -/
theorem reference_is_refused :
    Regroups library marked [] [member] [referring] ∧
      (∃ merged session', mergeAllOf library 2 marked outer [member] "M#/s" {} =
        some (.ok merged, session')) ∧
      ∀ budget merged session', mergeAllOf library budget marked outer [referring] "M#/s" {} ≠
        some (.ok merged, session') := by
  refine ⟨regroups, ?_, fun budget merged session' h ↦ ?_⟩
  · have hmerges : (mergeAllOf library 2 marked outer [member] "M#/s" {}).any fun ending ↦
        ending.1.toOption.any fun _ ↦ true := by decide +kernel
    obtain ⟨merged, session', hmerged, -⟩ := exists_ok_of_any hmerges
    exact ⟨merged, session', hmerged⟩
  · obtain ⟨key, last, found, hpasses⟩ := passes_twice
    obtain ⟨_, _, -, hclear, -⟩ := mergeAllOf_eq_ok_iff.1 ⟨budget, h⟩
    have hnodup := (hclear _ (.head _) _ _ _ hpasses).1
    simp at hnodup

end SharedKey

end SchemaBindings
