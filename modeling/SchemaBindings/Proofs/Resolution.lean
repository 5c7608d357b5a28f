import SchemaBindings.Proofs.Texts
import SchemaBindings.Schema.Resolve

/-!
# What references resolve to

A reference that resolves leads to a place, which is a document and a fragment of it, and to the
schema that is read there. Which place that is depends on the reference and the document it is
written in; where the reference is used matters for the text of failures only. An internal
reference stays in its document, an external one leads to a document of the library.
-/

namespace SchemaBindings

namespace Text

theorem cutChars_append {separator : Char} {before : List Char} (h : separator ∉ before)
    (after : List Char) :
    cutChars separator (before ++ separator :: after) = some (before, after) := by
  induction before with
  | nil => simp [cutChars]
  | cons c rest ih =>
    have hne : c ≠ separator := fun heq ↦ h (heq ▸ List.mem_cons_self)
    have hrest := ih fun hmem ↦ h (List.mem_cons_of_mem c hmem)
    rw [List.cons_append, cutChars, if_neg hne, hrest]
    rfl

/-- A text is cut at its first number sign. -/
theorem cut_hash {before : String} (h : '#' ∉ before.toList) (after : String) :
    cut '#' (before ++ ("#" ++ after)) = some (before, after) := by
  have htext : (before ++ ("#" ++ after)).toList = before.toList ++ '#' :: after.toList := by
    simp
  unfold cut
  rw [htext, cutChars_append h]
  simp

theorem startsWith_hash {text : String} (h : startsWith "#" text) :
    ∃ rest, text = "#" ++ String.ofList rest := by
  unfold startsWith at h
  cases htext : text.toList with
  | nil => rw [htext] at h; cases h
  | cons c rest =>
    rw [htext] at h
    have hc : '#' = c := by simpa using h
    subst hc
    exact ⟨rest, String.toList_inj.1 (by simp [htext])⟩

end Text

open Text

theorem splitReference_qualified {uri reference : String} (huri : '#' ∉ uri.toList)
    (h : isLocal reference) : splitReference (uri ++ reference) = (uri, reference) := by
  obtain ⟨rest, rfl⟩ := startsWith_hash h
  unfold splitReference
  rw [cut_hash huri]

theorem splitReference_local {reference : String} (h : isLocal reference) :
    splitReference reference = ("", reference) := by
  have hhash : '#' ∉ "".toList := by simp
  have hempty := splitReference_qualified hhash h
  rwa [String.empty_append] at hempty

/-- A reference without a URI is local, unless it is empty. -/
theorem splitReference_ne_empty {reference : String} (hne : reference ≠ "")
    (hnamed : ¬isLocal reference) : (splitReference reference).1 ≠ "" := by
  unfold splitReference
  split
  case h_2 => exact hne
  case h_1 uri fragment hcut =>
    rintro rfl
    obtain ⟨⟨before, after⟩, hchars, hpair⟩ := Option.map_eq_some_iff.1 hcut
    obtain ⟨hbefore, -⟩ := Prod.mk.inj hpair
    obtain ⟨htext, -⟩ := cutChars_eq_some hchars
    obtain rfl : before = [] := String.ofList_eq_empty_iff.1 hbefore
    apply hnamed
    unfold isLocal startsWith
    rw [htext]
    simp

/-- The fragment of a reference is a reference inside its document. -/
theorem isLocal_splitReference (reference : String) : isLocal (splitReference reference).2 := by
  unfold splitReference
  have hroot : isLocal "#" := by decide
  split
  · unfold isLocal startsWith
    simp
  · exact hroot

namespace Library

variable {library : Library} {current document : Document} {uri reference place : String}

theorem mem_of_get? (h : library.get? uri = some document) : document ∈ library.documents :=
  List.mem_of_find?_eq_some h

theorem uri_of_get? (h : library.get? uri = some document) : document.uri = uri :=
  by simpa using List.find?_some (h : library.documents.find? _ = some document)

theorem owner?_eq_some (h : library.owner? current uri = some document) :
    document = current ∨
      (library.get? document.uri = some document ∧ document.uri ≠ current.uri) := by
  unfold owner? at h
  split at h
  · cases h
    exact .inl rfl
  · rename_i hother
    have huri := uri_of_get? h
    subst huri
    exact .inr ⟨h, fun hcurrent ↦ hother (.inr hcurrent)⟩

/-- The place a reference leads to: the document that owns it and the fragment. -/
def place? (library : Library) (current : Document) (reference : String) :
    Option (Document × String) :=
  (library.owner? current (splitReference reference).1).map (·, (splitReference reference).2)

/-- A reference resolves if there is a value at its place that is readable as a schema. All that is
known of the target follows from the place, but for whether it is external. -/
theorem resolve_eq_ok_iff {target : Target} :
    library.resolve current reference place = .ok target ↔
      ∃ fragment value, library.place? current reference = some (target.owner, fragment) ∧
        target.owner.fragment? fragment = some value ∧
        Node.read (target.owner.schemaPath fragment) value = .ok target.node ∧
        target.title = target.node.title.getD (Pointer.lastStep fragment) ∧
        target.isExternal = decide (target.owner.uri ≠ current.uri) ∧
        target.key = target.owner.uri ++ fragment ∧
        target.path = target.owner.schemaPath fragment := by
  unfold resolve place?
  generalize splitReference reference = split
  obtain ⟨uri, fragment⟩ := split
  dsimp only
  constructor
  · intro h
    cases howner : library.owner? current uri with
    | none =>
      rw [howner] at h
      cases h
    | some owner =>
      rw [howner] at h
      dsimp only at h
      cases hvalue : owner.fragment? fragment with
      | none =>
        rw [hvalue] at h
        cases h
      | some value =>
        rw [hvalue] at h
        obtain ⟨node, hnode, rfl⟩ := Failure.map_eq_ok.1 h
        exact ⟨_, value, rfl, hvalue, hnode, rfl, rfl, rfl, rfl⟩
  · rintro ⟨_, value, hplace, hvalue, hnode, htitle, hexternal, hkey, hpath⟩
    obtain ⟨owner, howner, heq⟩ := Option.map_eq_some_iff.1 hplace
    obtain ⟨rfl, rfl⟩ := Prod.mk.inj heq
    rw [howner]
    dsimp only
    rw [hvalue, ← hpath, ← hkey, ← hexternal]
    refine Failure.map_eq_ok.2 ⟨target.node, hpath ▸ hnode, ?_⟩
    rw [← htitle]

/-- A reference that resolves leads to a value of the owner that is readable as a schema. -/
theorem resolve_eq_ok {target : Target}
    (h : library.resolve current reference place = .ok target) :
    ∃ fragment value, library.place? current reference = some (target.owner, fragment) ∧
      target.owner.fragment? fragment = some value ∧
      Node.read (target.owner.schemaPath fragment) value = .ok target.node ∧
      target.title = target.node.title.getD (Pointer.lastStep fragment) ∧
      target.isExternal = decide (target.owner.uri ≠ current.uri) ∧
      target.key = target.owner.uri ++ fragment ∧
      target.path = target.owner.schemaPath fragment :=
  resolve_eq_ok_iff.1 h

/-- A reference resolves in the same way wherever it is used. -/
theorem resolve_place {target : Target}
    (h : library.resolve current reference place = .ok target) (place' : String) :
    library.resolve current reference place' = .ok target :=
  resolve_eq_ok_iff.2 (resolve_eq_ok h)

/-- A reference resolves if another one does that leads to the same place. -/
theorem exists_resolve_of_place?_eq {current' : Document} {reference' : String} {target : Target}
    (h : library.resolve current reference place = .ok target)
    (hplace : library.place? current' reference' = library.place? current reference)
    (place' : String) : ∃ target', library.resolve current' reference' place' = .ok target' := by
  obtain ⟨fragment, value, hfound, hvalue, hnode, htitle, -, hkey, hpath⟩ := resolve_eq_ok h
  rw [← hplace] at hfound
  exact ⟨{ target with isExternal := decide (target.owner.uri ≠ current'.uri) },
    resolve_eq_ok_iff.2 ⟨fragment, value, hfound, hvalue, hnode, htitle, rfl, hkey, hpath⟩⟩

/-- References to one place lead to the same schema. -/
theorem resolve_of_place?_eq {current' : Document} {reference' place' : String}
    {target target' : Target} (h : library.resolve current reference place = .ok target)
    (h' : library.resolve current' reference' place' = .ok target')
    (hplace : library.place? current reference = library.place? current' reference') :
    target.owner = target'.owner ∧ target.node = target'.node ∧ target.title = target'.title ∧
      target.path = target'.path := by
  obtain ⟨fragment, value, hfound, hvalue, hnode, htitle, -, -, hpath⟩ := resolve_eq_ok h
  obtain ⟨fragment', value', hfound', hvalue', hnode', htitle', -, -, hpath'⟩ := resolve_eq_ok h'
  rw [hfound, hfound'] at hplace
  obtain ⟨howner, rfl⟩ := Prod.mk.inj (Option.some.inj hplace)
  rw [howner] at hvalue hnode hpath
  rw [hvalue'] at hvalue
  cases hvalue
  have hsame : target.node = target'.node := Except.ok.inj (hnode.symm.trans hnode')
  rw [hsame] at htitle
  exact ⟨howner, hsame, htitle.trans htitle'.symm, hpath.trans hpath'.symm⟩

theorem fragment_of_place? {owner : Document} {fragment : String}
    (h : library.place? current reference = some (owner, fragment)) :
    fragment = (splitReference reference).2 := by
  obtain ⟨found, -, heq⟩ := Option.map_eq_some_iff.1 h
  cases heq
  rfl

theorem owner_of_place? {owner : Document} {fragment : String}
    (h : library.place? current reference = some (owner, fragment)) :
    owner = current ∨ (library.get? owner.uri = some owner ∧ owner.uri ≠ current.uri) := by
  obtain ⟨found, howner, heq⟩ := Option.map_eq_some_iff.1 h
  cases heq
  exact owner?_eq_some howner

theorem owner_of_resolve {target : Target}
    (h : library.resolve current reference place = .ok target) :
    target.owner = current ∨ target.owner ∈ library.documents := by
  obtain ⟨fragment, value, hplace, -⟩ := resolve_eq_ok h
  exact (owner_of_place? hplace).imp id fun hother ↦ mem_of_get? hother.1

/-- From a document of the library references lead to documents of the library. -/
theorem get?_of_resolve (hcurrent : library.get? current.uri = some current) {target : Target}
    (h : library.resolve current reference place = .ok target) :
    library.get? target.owner.uri = some target.owner := by
  obtain ⟨fragment, value, hplace, -⟩ := resolve_eq_ok h
  obtain hsame | ⟨hget, -⟩ := owner_of_place? hplace
  · rw [hsame]
    exact hcurrent
  · exact hget

/-- An internal reference stays in the document it is written in. -/
theorem owner_eq_of_not_isExternal {target : Target}
    (h : library.resolve current reference place = .ok target) (hinternal : ¬target.isExternal) :
    target.owner = current := by
  obtain ⟨fragment, value, hplace, -, -, -, hexternal, -⟩ := resolve_eq_ok h
  obtain hcurrent | ⟨-, hne⟩ := owner_of_place? hplace
  · exact hcurrent
  · rw [hexternal, decide_eq_true_eq] at hinternal
    exact absurd hne hinternal

theorem isExternal_of_owner_eq {target : Target}
    (h : library.resolve current reference place = .ok target) (hinside : target.owner = current) :
    target.isExternal = false := by
  obtain ⟨_, _, -, -, -, -, hexternal, -⟩ := resolve_eq_ok h
  rw [hexternal, hinside]
  exact decide_eq_false fun hother ↦ hother rfl

/-- The owner of a named document does not depend on where it is named. -/
theorem owner?_of_ne_empty (hcurrent : library.get? current.uri = some current) (huri : uri ≠ "") :
    library.owner? current uri = library.get? uri := by
  unfold owner?
  by_cases hself : uri = current.uri
  · rw [if_pos (.inr hself), hself, hcurrent]
  · rw [if_neg fun h ↦ h.elim huri hself]

theorem place?_of_named (hcurrent : library.get? current.uri = some current)
    (hnamed : (splitReference reference).1 ≠ "") :
    library.place? current reference =
      (library.get? (splitReference reference).1).map (·, (splitReference reference).2) := by
  unfold place?
  rw [owner?_of_ne_empty hcurrent hnamed]

theorem place?_of_unnamed (hunnamed : (splitReference reference).1 = "") :
    library.place? current reference = some (current, (splitReference reference).2) := by
  unfold place? owner?
  rw [hunnamed, if_pos (.inl rfl)]
  rfl

theorem place?_of_isLocal (hlocal : isLocal reference) :
    library.place? current reference = some (current, reference) := by
  have hsplit := splitReference_local hlocal
  rw [place?_of_unnamed (congrArg Prod.fst hsplit), hsplit]

end Library

/-- Every document has a URI, and the URI ends where a fragment starts. -/
def Library.HasUris (library : Library) : Prop :=
  ∀ document ∈ library.documents, document.uri ≠ "" ∧ '#' ∉ document.uri.toList

/-- A reference behind the URI of a document leads into the document. -/
theorem Library.place?_of_owner? {library : Library} {current home : Document}
    (hhash : '#' ∉ home.uri.toList) (howner : library.owner? current home.uri = some home)
    {reference : String} (hlocal : isLocal reference) :
    library.place? current (home.uri ++ reference) = some (home, reference) := by
  unfold place?
  rw [splitReference_qualified hhash hlocal, howner]
  rfl

/-- A qualified reference means everywhere what the reference means in its document. -/
theorem Library.place?_qualified {library : Library} (huris : library.HasUris)
    {current home : Document} (hhome : library.get? home.uri = some home)
    (howner : library.owner? current home.uri = some home) {reference : String}
    (hlocal : isLocal reference) :
    library.place? current (home.uri ++ reference) = library.place? home reference := by
  obtain ⟨-, hhash⟩ := huris home (mem_of_get? hhome)
  rw [place?_of_owner? hhash howner hlocal, place?_of_isLocal hlocal]

end SchemaBindings
