import Mathlib.Data.List.Forall2
import SchemaBindings.Proofs.Mentions
import SchemaBindings.Proofs.Resolution

/-!
# Qualified references

A schema that is looked at outside of its document has its local references put behind the URI of
the document. They stay in their places, and what each of them leads to can be read from any other
document of the library: the same schema of the same owner, or a failure that differs in the text
of the reference at most. A reference that names a document is left alone, so that qualifying a
second time has nothing to do.
-/

namespace SchemaBindings

open Text

/-! ## References in their places -/

theorem Mention.target?_qualify (uri : String) (m : Mention) :
    (m.qualify uri).target? = m.target?.map (qualifyReference uri) := by
  cases m <;> rfl

theorem Node.references_qualify (uri : String) (node : Node) :
    (node.qualify uri).references = node.references.map (qualifyReference uri) := by
  rw [Node.references_eq, Node.references_eq, Node.mentions_qualify, List.filterMap_map,
    List.map_filterMap]
  congr 1
  funext m
  exact m.target?_qualify uri

/-! ## Schemas without local references -/

mutual

/-- Qualifying changes nothing but the references. -/
theorem Node.qualify_eq_self {uri : String} :
    (node : Node) → (∀ reference ∈ node.references, qualifyReference uri reference = reference) →
      node.qualify uri = node
  | .mk title description kind, h => by
    rw [Node.qualify, Kind.qualify_eq_self kind h]

theorem Kind.qualify_eq_self {uri : String} :
    (kind : Kind) → (∀ reference ∈ kind.references, qualifyReference uri reference = reference) →
      kind.qualify uri = kind
  | .reference target, h => by
    rw [Kind.qualify, h target (List.mem_singleton_self target)]
  | .object (.mk none _ none _), _ => rfl
  | .object (.mk none _ (some additional) _), h => by
    simp only [Kind.qualify, Node.qualify_eq_self additional h]
  | .object (.mk (some properties) _ none _), h => by
    have hproperties := qualifyProperties_eq_self properties fun reference hmem ↦
      h reference (List.mem_append_left _ hmem)
    simp only [Kind.qualify, hproperties]
  | .object (.mk (some properties) _ (some additional) _), h => by
    have hproperties := qualifyProperties_eq_self properties fun reference hmem ↦
      h reference (List.mem_append_left _ hmem)
    have hadditional := Node.qualify_eq_self additional fun reference hmem ↦
      h reference (List.mem_append_right _ hmem)
    simp only [Kind.qualify, hproperties, hadditional]
  | .array (.single item), h => by rw [Kind.qualify, Node.qualify_eq_self item h]
  | .array (.tuple items), h => by rw [Kind.qualify, qualifyList_eq_self items h]
  | .allOf members, h => by rw [Kind.qualify, qualifyList_eq_self members h]
  | .oneOf members, h => by rw [Kind.qualify, qualifyList_eq_self members h]
  | .anyOf members, h => by rw [Kind.qualify, qualifyList_eq_self members h]
  | .constant .., _ => rfl
  | .enumeration _, _ => rfl
  | .primitive .., _ => rfl
  | .unconstrained, _ => rfl

theorem qualifyList_eq_self {uri : String} :
    (nodes : List Node) →
      (∀ reference ∈ listReferences nodes, qualifyReference uri reference = reference) →
      qualifyList uri nodes = nodes
  | [], _ => rfl
  | node :: rest, h => by
    have hnode := Node.qualify_eq_self node fun reference hmem ↦
      h reference (List.mem_append_left _ hmem)
    have hrest := qualifyList_eq_self rest fun reference hmem ↦
      h reference (List.mem_append_right _ hmem)
    rw [qualifyList, hnode, hrest]

theorem qualifyProperties_eq_self {uri : String} :
    (properties : List (String × Node)) →
      (∀ reference ∈ propertyReferences properties, qualifyReference uri reference = reference) →
      qualifyProperties uri properties = properties
  | [], _ => rfl
  | (name, node) :: rest, h => by
    have hnode := Node.qualify_eq_self node fun reference hmem ↦
      h reference (List.mem_append_left _ hmem)
    have hrest := qualifyProperties_eq_self rest fun reference hmem ↦
      h reference (List.mem_append_right _ hmem)
    rw [qualifyProperties, hnode, hrest]

end

/-- A qualified reference is not local, as its URI is not empty and starts with no number sign. -/
theorem not_isLocal_qualifyReference {uri : String} (hne : uri ≠ "") (hhash : '#' ∉ uri.toList)
    (reference : String) : ¬isLocal (qualifyReference uri reference) := by
  unfold qualifyReference
  split
  case isFalse hother => exact hother
  case isTrue =>
    intro hlocal
    obtain ⟨rest, hrest⟩ := startsWith_hash hlocal
    cases huri : uri.toList with
    | nil => exact hne (String.toList_eq_nil_iff.1 huri)
    | cons c tail =>
      have hchars := congrArg String.toList hrest
      rw [String.toList_append, String.toList_append, huri] at hchars
      obtain ⟨rfl, -⟩ := List.cons.inj hchars
      exact hhash (huri ▸ List.mem_cons_self)

theorem Node.qualify_qualify {uri : String} (hne : uri ≠ "") (hhash : '#' ∉ uri.toList)
    (other : String) (node : Node) : (node.qualify uri).qualify other = node.qualify uri := by
  refine Node.qualify_eq_self _ fun reference hmem ↦ ?_
  rw [Node.references_qualify] at hmem
  obtain ⟨original, -, rfl⟩ := List.mem_map.1 hmem
  exact if_neg (not_isLocal_qualifyReference hne hhash original)

/-! ## What qualified references lead to -/

/-- The target as it is seen from another document. -/
def Target.seenFrom (target : Target) (document : Document) : Target :=
  { target with isExternal := target.owner.uri ≠ document.uri }

/-- The failure is the same, but for the text of the reference. -/
inductive Failure.Reworded (reference copy : String) : Failure → Failure → Prop
  | unknownDocument (path : String) :
      Reworded reference copy (.unknownDocument reference path) (.unknownDocument copy path)
  | unresolvedReference (path : String) :
      Reworded reference copy (.unresolvedReference reference path)
        (.unresolvedReference copy path)
  | same (failure : Failure) : Reworded reference copy failure failure

/-- What a reference leads to, and what its copy leads to in another document. -/
inductive Library.SameTarget (user : Document) (reference copy : String) :
    Except Failure Target → Except Failure Target → Prop
  | ok (target : Target) : SameTarget user reference copy (.ok target) (.ok (target.seenFrom user))
  | error {failure failure' : Failure} (h : failure.Reworded reference copy failure') :
      SameTarget user reference copy (.error failure) (.error failure')

namespace Library

variable {library : Library} {owner user : Document} {reference copy : String}

/-- References to one place differ in nothing but where they are seen from. -/
theorem sameTarget_of_place?_eq
    (h : library.place? user copy = library.place? owner reference) (path : String) :
    SameTarget user reference copy (library.resolve owner reference path)
      (library.resolve user copy path) := by
  unfold place? at h
  unfold resolve
  generalize splitReference reference = split at h ⊢
  generalize splitReference copy = split' at h ⊢
  obtain ⟨uri, fragment⟩ := split
  obtain ⟨uri', fragment'⟩ := split'
  dsimp only at h ⊢
  cases hfound : library.owner? owner uri with
  | none =>
    rw [hfound, Option.map_none, Option.map_eq_none_iff] at h
    rw [h]
    exact .error (.unknownDocument path)
  | some found =>
    rw [hfound, Option.map_some, Option.map_eq_some_iff] at h
    obtain ⟨found', hfound', heq⟩ := h
    cases heq
    rw [hfound']
    dsimp only
    cases found.fragment? fragment with
    | none => exact .error (.unresolvedReference path)
    | some value =>
      dsimp only
      cases Node.read (found.schemaPath fragment) value with
      | error failure => exact .error (.same failure)
      | ok node => exact .ok _

theorem place?_qualifyReference (hne : owner.uri ≠ "") (hhash : '#' ∉ owner.uri.toList)
    (howner : library.get? owner.uri = some owner) (huser : library.get? user.uri = some user)
    (hreference : reference ≠ "") :
    library.place? user (qualifyReference owner.uri reference) =
      library.place? owner reference := by
  unfold qualifyReference
  split
  case isTrue hlocal =>
    have hfound : library.owner? user owner.uri = some owner :=
      (owner?_of_ne_empty huser hne).trans howner
    rw [place?_of_owner? hhash hfound hlocal, place?_of_isLocal hlocal]
  case isFalse hnamed =>
    have huri := splitReference_ne_empty hreference hnamed
    rw [place?_of_named huser huri, place?_of_named howner huri]

end Library

open Library

/-- Qualified with the URI of its document, a schema has its local references behind the URI and all
references in their places. Each of them leads another document of the library to what it leads to
at home, and qualifying once more changes nothing. -/
theorem qualified_references_keep_targets {library : Library} {owner user : Document}
    (howner : library.get? owner.uri = some owner) (huser : library.get? user.uri = some user)
    (hne : owner.uri ≠ "") (hhash : '#' ∉ owner.uri.toList) {node : Node}
    (hreferences : "" ∉ node.references) :
    (node.qualify owner.uri).references = (node.references.map fun reference ↦
      if isLocal reference then owner.uri ++ reference else reference) ∧
    List.Forall₂ (fun reference copy ↦ ∀ path, SameTarget user reference copy
        (library.resolve owner reference path) (library.resolve user copy path))
      node.references (node.qualify owner.uri).references ∧
    ∀ other, (node.qualify owner.uri).qualify other = node.qualify owner.uri := by
  refine ⟨node.references_qualify owner.uri, ?_, fun other ↦ node.qualify_qualify hne hhash other⟩
  rw [node.references_qualify, List.forall₂_map_right_iff, List.forall₂_same]
  intro reference hmem path
  have hreference : reference ≠ "" := fun hempty ↦ hreferences (hempty ▸ hmem)
  exact sameTarget_of_place?_eq (place?_qualifyReference hne hhash howner huser hreference) path

namespace SharedPair

def owner : Document where
  uri := "Types"
  title := "Types"
  family := .schema
  definitionsRoot := "#/definitions"
  definitions := [("Mode", .ofKind (.primitive .boolean none))]
  methods := []
  content := .object [("definitions", .object [
    ("Mode", .object [("type", .string "boolean")])])]

def user : Document where
  uri := "Player"
  title := "Player"
  family := .schema
  definitionsRoot := "#/definitions"
  definitions := [("Mode", .ofKind (.primitive .string none))]
  methods := []
  content := .object [("definitions", .object [
    ("Mode", .object [("type", .string "string")])])]

def library : Library := ⟨[user, owner]⟩

/-- The own `Mode` in two ways, that of the other document, the other document as a whole, and a
definition that there is none of. -/
def pair : Node :=
  .ofKind (.array (.tuple (["#/definitions/Mode", "Types#/definitions/Mode",
    "Player#/definitions/Mode", "Player", "#/definitions/Absent"].map fun target ↦
      .ofKind (.reference target))))

theorem pair_is_read_in_player :
    library.get? owner.uri = some owner ∧ library.get? user.uri = some user ∧
    owner.uri ≠ "" ∧ '#' ∉ owner.uri.toList ∧ "" ∉ pair.references ∧
    (pair.qualify "Types").references = ["Types#/definitions/Mode", "Types#/definitions/Mode",
      "Player#/definitions/Mode", "Player", "Types#/definitions/Absent"] ∧
    SameTarget user "#/definitions/Mode" "Types#/definitions/Mode"
      (library.resolve owner "#/definitions/Mode" "Player#/p")
      (library.resolve user "Types#/definitions/Mode" "Player#/p") ∧
    (library.resolve user "Types#/definitions/Mode" "Player#/p").toOption.map
      (fun target ↦ (target.owner.uri, target.key, target.isExternal)) =
        some ("Types", "Types#/definitions/Mode", true) ∧
    (pair.qualify "Types").qualify "Player" = pair.qualify "Types" := by
  have hne : owner.uri ≠ "" := by decide
  have hhash : '#' ∉ owner.uri.toList := by decide
  have hreferences : "" ∉ pair.references := by decide
  obtain ⟨hplaces, htargets, htwice⟩ :=
    @qualified_references_keep_targets library owner user rfl rfl hne hhash pair hreferences
  refine ⟨rfl, rfl, hne, hhash, hreferences, hplaces.trans (by decide +kernel), ?_,
    by decide +kernel, htwice "Player"⟩
  rw [hplaces] at htargets
  exact (List.forall₂_cons.1 htargets).1 "Player#/p"

end SharedPair

end SchemaBindings
