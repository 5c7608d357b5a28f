import SchemaBindings.Proofs.Occurrences

/-!
# Targets of merged references

A reference in a merged composition is the copy of a reference that is written somewhere on the
way, and it is read in the document of the composition. A copy that names a document means the
same everywhere. Of the copies that name none, only those keep their target whose document is
that of the composition, and those that were qualified when the last reference led out of a
document: two hops in a row inside another document lose it.
-/

namespace SchemaBindings

namespace Occurrence

variable {library : Library} {document : Document}

theorem Leads.home {o o' : Occurrence} (h : Leads library o o')
    (hhome : library.get? o.home.uri = some o.home) :
    library.get? o'.home.uri = some o'.home := by
  cases h with
  | reference hkind htarget => exact Library.get?_of_resolve hhome htarget
  | member hkind hnode => exact hhome

theorem Reaches.home {o o' : Occurrence} (h : Reaches library o o')
    (hhome : library.get? o.home.uri = some o.home) :
    library.get? o'.home.uri = some o'.home := by
  induction h with
  | refl => exact hhome
  | tail _ hlast ih => exact hlast.home ih

/-- What it takes for a copied reference to mean in `document` what it means at home: it names a
document, or it is at home there, or it was qualified. -/
def Keeps (document : Document) (o : Occurrence) (reference : String) : Prop :=
  (splitReference reference).1 ≠ "" ∨ o.home = document ∨ (o.isForeign ∧ isLocal reference)

theorem place?_copyReference_iff (huris : library.HasUris)
    (hdocument : library.get? document.uri = some document) {o : Occurrence}
    (hhome : library.get? o.home.uri = some o.home) (reference : String) :
    library.place? document (o.copyReference reference) = library.place? o.home reference ↔
      o.Keeps document reference := by
  obtain ⟨home, node, isForeign⟩ := o
  dsimp only at hhome
  by_cases hqualified : isForeign ∧ isLocal reference
  · obtain ⟨rfl, hlocal⟩ := hqualified
    obtain ⟨hne, -⟩ := huris home (Library.mem_of_get? hhome)
    have hcopy : copyReference ⟨home, node, true⟩ reference = home.uri ++ reference :=
      if_pos hlocal
    have howner : library.owner? document home.uri = some home :=
      (Library.owner?_of_ne_empty hdocument hne).trans hhome
    rw [hcopy, Library.place?_qualified huris hhome howner hlocal]
    exact ⟨fun _ ↦ .inr (.inr ⟨rfl, hlocal⟩), fun _ ↦ rfl⟩
  · have hcopy : copyReference ⟨home, node, isForeign⟩ reference = reference := by
      unfold copyReference
      split
      · exact if_neg fun hlocal ↦ hqualified ⟨‹_›, hlocal⟩
      · rfl
    rw [hcopy]
    by_cases hnamed : (splitReference reference).1 = ""
    · rw [Library.place?_of_unnamed hnamed, Library.place?_of_unnamed hnamed]
      constructor
      · intro h
        cases h
        exact .inr (.inl rfl)
      · rintro (hne | rfl | hboth)
        · exact absurd hnamed hne
        · rfl
        · exact absurd hboth hqualified
    · rw [Library.place?_of_named hdocument hnamed, Library.place?_of_named hhome hnamed]
      exact ⟨fun _ ↦ .inl hnamed, fun _ ↦ rfl⟩

/-- The reference is written in a schema that the members of a composition lead to, and `copied`
is its copy. -/
structure Copied (library : Library) (document : Document) (members : List Node)
    (copied : String) (o : Occurrence) (reference : String) : Prop where
  reaches : ∃ member ∈ members, Reaches library ⟨document, member, false⟩ o
  mem : reference ∈ o.node.references
  eq : copied = o.copyReference reference

end Occurrence

open Occurrence

/-- Every reference that a composition is merged with is copied from one that is written on the
way, and it has the target of what it was copied from exactly if that one names a document, is
written in the document of the composition, or was qualified on the last hop. -/
theorem mergeAllOf_target_iff {library : Library} (huris : library.HasUris) {document : Document}
    (hdocument : library.get? document.uri = some document) {budget : Nat} {outer merged : Node}
    {members : List Node} {path : String} {session session' : Session}
    (h : mergeAllOf library budget document outer members path session =
      some (.ok merged, session')) {copied : String} (hcopied : copied ∈ merged.references) :
    (∃ o reference, Copied library document members copied o reference) ∧
    ∀ o reference, Copied library document members copied o reference →
      (library.place? document copied = library.place? o.home reference ↔
        o.Keeps document reference) := by
  constructor
  · obtain ⟨member, hmember, o, hreaches, hm⟩ :=
      exists_reaches_of_mergeAllOf h ((Node.mem_references merged).1 hcopied)
    obtain ⟨reference, hwritten, heq⟩ := reference_of_copy hm
    exact ⟨o, reference, ⟨member, hmember, hreaches⟩, (Node.mem_references o.node).2 hwritten, heq⟩
  · rintro o reference ⟨⟨member, -, hreaches⟩, -, rfl⟩
    exact place?_copyReference_iff huris hdocument (hreaches.home hdocument) reference

namespace TwoHops

def typed (type : String) : Json := .object [("type", .string type)]

def referring (target : String) : Json := .object [("$ref", .string target)]

/-- `Y` refers on to `Z`, and `Z` to the `W` beside it. -/
def owner : Document where
  uri := "A"
  title := "A"
  family := .schema
  definitionsRoot := "#/definitions"
  definitions := [
    ("W", .ofKind (.primitive .boolean none)),
    ("Y", .ofKind (.reference "#/definitions/Z")),
    ("Z", .ofKind (.object
      (.mk (some [("w", .ofKind (.reference "#/definitions/W"))]) none none false)))]
  methods := []
  content := .object [("$id", .string "A"), ("title", .string "A"), ("definitions", .object [
    ("W", typed "boolean"),
    ("Y", referring "#/definitions/Z"),
    ("Z", .object [("type", .string "object"),
      ("properties", .object [("w", referring "#/definitions/W")])])])]

/-- A document with a `W` of its own. -/
def user : Document where
  uri := "M"
  title := "M"
  family := .schema
  definitionsRoot := "#/definitions"
  definitions := [("W", .ofKind (.primitive .string none))]
  methods := []
  content := .object [("$id", .string "M"), ("title", .string "M"), ("definitions", .object [
    ("W", typed "string")])]

def library : Library := ⟨[user, owner]⟩

def members : List Node := [.ofKind (.reference "A#/definitions/Y")]

def merged : Node :=
  .ofKind (.object (.mk (some [("w", .ofKind (.reference "#/definitions/W"))]) none none false))

def foreign : Target :=
  ⟨owner, .ofKind (.reference "#/definitions/Z"), "Y", true, "A#/definitions/Y",
    "A#/definitions/Y"⟩

def inner : Target :=
  ⟨owner, merged, "Z", false, "A#/definitions/Z", "A#/definitions/Z"⟩

theorem resolve_foreign :
    library.resolve user "A#/definitions/Y" "M#/s/allOf/0" = .ok foreign := by
  cbv

theorem resolve_inner :
    library.resolve owner "A#/definitions/Z" "A#/definitions/Y" = .ok inner := by
  cbv

theorem collect_member :
    Flatten.collect library 3 user "M#/s/allOf/0" (.ofKind (.reference "A#/definitions/Y")) {} =
      some (.ok [merged.kind], {}) := by
  have hinner : Flatten.collect library 2 owner "A#/definitions/Y"
      (.ofKind (.reference "A#/definitions/Z")) (Session.push {} "A#/definitions/Y") =
      some (.ok [merged.kind], Session.push {} "A#/definitions/Y") := by
    change (Mapping.ofExcept _ >>= _) _ = _
    rw [Mapping.run_ofExcept_bind, resolve_inner]
    dsimp only
    rw [Mapping.run_following, if_neg (by decide)]
    rfl
  change (Mapping.ofExcept _ >>= _) _ = _
  rw [Mapping.run_ofExcept_bind, resolve_foreign]
  dsimp only
  rw [Mapping.run_following, if_neg (by decide)]
  change (Flatten.collect library 2 owner "A#/definitions/Y"
    (.ofKind (.reference "A#/definitions/Z")) (Session.push {} "A#/definitions/Y")).map _ = _
  rw [hinner]
  rfl

theorem mergeAllOf_members :
    mergeAllOf library 3 user (.ofKind (.allOf members)) members "M#/s" {} =
      some (.ok merged, {}) := by
  have hpath : Pointer.child (Pointer.child "M#/s" "allOf") (toString 0) = "M#/s/allOf/0" := by
    cbv
  have hmembers : Flatten.members (Flatten.collect library 3) user (Pointer.child "M#/s" "allOf") 0
      members {} = some (.ok [merged.kind], {}) := by
    unfold members Flatten.members
    rw [hpath, Mapping.run_bind_ok collect_member]
    rfl
  unfold mergeAllOf
  rw [Mapping.run_bind_ok hmembers]
  rfl

/-- Merged in `user`, the reference beside `Z` binds to the definition of `user`. -/
theorem merged_reference_rebinds :
    mergeAllOf library 3 user (.ofKind (.allOf members)) members "M#/s" {} =
        some (.ok merged, {}) ∧
      merged.references = ["#/definitions/W"] ∧
      library.place? user "#/definitions/W" = some (user, "#/definitions/W") ∧
      library.place? owner "#/definitions/W" = some (owner, "#/definitions/W") ∧
      user.uri ≠ owner.uri :=
  ⟨mergeAllOf_members, rfl, rfl, rfl, by decide⟩

theorem hasUris_library : library.HasUris := by
  intro document hdocument
  simp only [library, List.mem_cons, List.not_mem_nil, or_false] at hdocument
  obtain rfl | rfl := hdocument <;> exact ⟨by decide, by decide⟩

theorem target_iff_in_user :
    (∃ o reference, Copied library user members "#/definitions/W" o reference) ∧
    ∀ o reference, Copied library user members "#/definitions/W" o reference →
      (library.place? user "#/definitions/W" = library.place? o.home reference ↔
        o.Keeps user reference) :=
  mergeAllOf_target_iff hasUris_library rfl mergeAllOf_members (by decide)

end TwoHops

end SchemaBindings
