import SchemaBindings.Proofs.Presence

/-!
# Schemas behind names

The name of a type and what carries it on the wire may have a symbol in them. It is a symbol of the
type itself or of one that the type is made from: a reference is named as its target is, and what
carries an array has in it what carries its elements.
-/

namespace SchemaBindings

open Mapping

variable {cx : Context} {library : Library} {v v' w : Visit} {d : Declared} {spelling : Spelling}

/-- The text has a symbol of the schema in it, with the stem that the registry knows. -/
def Visit.Named (w : Visit) (d : Declared) (registry : Registry) (text : String) : Prop :=
  ∃ stem place symbol left right, registry.stem? w.path = some stem ∧
    (place, symbol) ∈ d.code w.document.title stem ∧ text = left ++ symbol ++ right

theorem Visit.Named.within {registry : Registry} {text : String} (h : w.Named d registry text)
    (before after : String) : w.Named d registry (before ++ text ++ after) := by
  obtain ⟨stem, place, symbol, left, right, hstem, hcode, rfl⟩ := h
  refine ⟨stem, place, symbol, before ++ left, right ++ after, hstem, hcode, ?_⟩
  simp only [String.append_assoc]

namespace Spelling

/-- If the spelling has a stem in it, it names a declared schema that the type is made from. -/
def NamesPart (library : Library) (v : Visit) (spelling : Spelling) : Prop :=
  ∀ path ∈ spelling.path?, ∃ w d, Relation.ReflTransGen (Visit.MadeFrom library) v w ∧
    w.declared? = some d ∧ w.path = path ∧
      ∀ registry text, spelling.Reads registry text → w.Named d registry text

theorem namesPart_plain (name : String) : (plain name).NamesPart library v := by
  rintro path ⟨⟩

theorem NamesPart.head (h : spelling.NamesPart library v') (hmade : v.MadeFrom library v') :
    spelling.NamesPart library v := by
  intro path hpath
  obtain ⟨w, d, hreaches, hnamed⟩ := h path hpath
  exact ⟨w, d, hreaches.head hmade, hnamed⟩

theorem Reads.of_within {registry : Registry} {left right text : String}
    (h : Reads registry (spelling.within left right) text) :
    ∃ inner, Reads registry spelling inner ∧ text = left ++ inner ++ right := by
  cases spelling with
  | plain name =>
    cases h
    exact ⟨name, .plain name, rfl⟩
  | around before path after =>
    cases h with
    | @around _ _ _ stem hstem =>
      refine ⟨before ++ stem ++ after, .around hstem, ?_⟩
      simp only [String.append_assoc]

theorem NamesPart.within (h : spelling.NamesPart library v) (left right : String) :
    (spelling.within left right).NamesPart library v := by
  intro path hpath
  have hsame : (spelling.within left right).path? = spelling.path? := by cases spelling <;> rfl
  rw [hsame] at hpath
  obtain ⟨w, d, hreaches, hdeclared, rfl, hnamed⟩ := h path hpath
  refine ⟨w, d, hreaches, hdeclared, rfl, fun registry text hreads ↦ ?_⟩
  obtain ⟨inner, hinner, rfl⟩ := hreads.of_within
  exact (hnamed registry inner hinner).within left right

/-- A type that is declared is named by what is spelled around its stem. -/
theorem namesPart_around (hdeclared : v.declared? = some d) {before after : String}
    (h : ∀ stem, ∃ place symbol left right, (place, symbol) ∈ d.code v.document.title stem ∧
      before ++ stem ++ after = left ++ symbol ++ right) :
    (around before v.path after).NamesPart library v := by
  rintro path ⟨⟩
  refine ⟨v, d, .refl, hdeclared, rfl, fun registry text hreads ↦ ?_⟩
  cases hreads with
  | @around _ _ _ stem hstem =>
    obtain ⟨place, symbol, left, right, hcode, htext⟩ := h stem
    exact ⟨stem, place, symbol, left, right, hstem, hcode, htext⟩

theorem namesPart_symbol (hdeclared : v.declared? = some d) {suffix : String}
    (h : ∀ stem, ∃ place, (place, Names.qualified v.document.title stem ++ suffix) ∈
      d.code v.document.title stem) :
    (symbol v.document.title v.path suffix).NamesPart library v := by
  refine namesPart_around hdeclared fun stem ↦ ?_
  obtain ⟨place, hcode⟩ := h stem
  refine ⟨place, _, "", "", hcode, ?_⟩
  rw [String.empty_append, String.append_empty]
  rfl

end Spelling

namespace TypeSpelling

/-- Both names of the type name declared schemas that it is made from, if they have stems in
them. -/
def NamesParts (library : Library) (v : Visit) (spelling : TypeSpelling) : Prop :=
  spelling.name.NamesPart library v ∧ spelling.wire.NamesPart library v

theorem namesParts_ofType (type : NativeType) : (ofType type).NamesParts library v :=
  ⟨Spelling.namesPart_plain _, Spelling.namesPart_plain _⟩

theorem NamesParts.head {spelling : TypeSpelling} (h : spelling.NamesParts library v')
    (hmade : v.MadeFrom library v') : spelling.NamesParts library v :=
  ⟨h.1.head hmade, h.2.head hmade⟩

variable {runtime : Runtime}

theorem namesParts_enumeration {label : String} {description : Option String}
    {values : List String}
    (hdeclared : v.declared? = some (.enumeration label description values)) :
    (enumeration runtime v.document.title v.path).NamesParts library v := by
  have hname : (Spelling.symbol v.document.title v.path "").NamesPart library v :=
    Spelling.namesPart_symbol hdeclared fun stem ↦ by
      rw [String.append_empty]
      exact ⟨.enums, .head _⟩
  exact ⟨hname, hname.within _ _⟩

/-- An array is carried by what carries its elements. -/
theorem namesParts_array {item : Node} {name : String} {element : TypeSpelling}
    (hdeclared : v.declared? = some (.array item name))
    (helement : element.wire.NamesPart library v) :
    (array runtime v.document.title v.path element).NamesParts library v := by
  refine ⟨Spelling.namesPart_symbol hdeclared fun stem ↦ ⟨.declarations, ?_⟩,
    helement.within _ _⟩
  rw [← String.append_assoc]
  exact .head _

theorem namesParts_object {schema : ObjectSchema}
    (hdeclared : v.declared? = some (.object schema)) :
    (object runtime v.document.title v.path).NamesParts library v := by
  refine ⟨Spelling.namesPart_symbol hdeclared fun stem ↦ ⟨.declarations, .head _⟩,
    Spelling.namesPart_around hdeclared fun stem ↦ ?_⟩
  refine ⟨.containers, Names.containerClass stem,
    runtime.sdkNamespace ++ "::" ++ Text.capitalize v.document.title ++ "::", "", ?_, ?_⟩
  · exact List.mem_append_right _ (List.mem_singleton_self _)
  · simp only [Names.containerClass, String.append_assoc, String.append_empty]

theorem namesParts_map {additional : Node} (hdeclared : v.declared? = some (.map additional)) :
    (map runtime v.document.title v.path).NamesParts library v :=
  ⟨Spelling.namesPart_symbol hdeclared fun _ ↦ ⟨.declarations, .head _⟩,
    Spelling.namesPart_plain _⟩

theorem namesParts_ofObject {label : String} {schema : ObjectSchema} (hlabel : v.label = .ok label)
    (hkind : v.node.kind = .object schema) :
    (ofObject runtime v.document.title v.path schema).NamesParts library v := by
  unfold ofObject
  by_cases hproperties : schema.hasProperties
  · rw [if_pos hproperties]
    exact namesParts_object (Visit.declared?_object hlabel hkind hproperties)
  rw [if_neg hproperties]
  cases hadditional : schema.additional with
  | some additional =>
    exact namesParts_map
      (Visit.declared?_map hlabel hkind (Bool.eq_false_iff.2 hproperties) hadditional)
  | none => exact namesParts_ofType _

end TypeSpelling

/-- What a schema with a type is called names what the type is made from. -/
theorem Native.namesParts_of_spell? (budget : Nat) (htype : v.HasType cx) {scope : String}
    {spelling : TypeSpelling}
    (h : spell? cx budget v.document v.node (v.request scope) = some spelling) :
    spelling.NamesParts cx.library v := by
  induction budget generalizing v scope spelling with
  | zero => cases h
  | succ budget ih =>
    have hpart : ∀ {v' : Visit} {scope : String} {spelling : TypeSpelling},
        v.MadeFrom cx.library v' →
        spell? cx budget v'.document v'.node (v'.request scope) = some spelling →
          spelling.NamesParts cx.library v :=
      fun hmade hspelling ↦ (ih (htype.madeFrom hmade) hspelling).head hmade
    have hlabelled := htype.label
    obtain ⟨document, ⟨title, description, kind⟩, name, path⟩ := v
    unfold spell? at h
    cases kind with
    | reference reference =>
      dsimp only [Node.kind_mk] at h
      split at h
      · exact hpart (Visit.madeFrom_target rfl ‹_›) h
      · cases h
    | constant value minimum =>
      obtain ⟨primitive, -, rfl⟩ := Option.map_eq_some_iff.1 h
      exact TypeSpelling.namesParts_ofType _
    | enumeration values =>
      cases h
      obtain ⟨label, hlabel⟩ := hlabelled rfl
      exact TypeSpelling.namesParts_enumeration (Visit.declared?_enumeration hlabel rfl)
    | array items =>
      dsimp only [Node.kind_mk] at h
      split at h
      · rename_i label item hlabel hitem
        obtain ⟨element, helement, rfl⟩ := Option.map_eq_some_iff.1 h
        exact TypeSpelling.namesParts_array (Visit.declared?_array hlabel rfl hitem)
          (hpart (Visit.madeFrom_element rfl hlabel hitem) helement).2
      · cases h
    | allOf members =>
      dsimp only [Node.kind_mk] at h
      split at h
      · rename_i label merged session hlabel hmerge
        obtain ⟨rfl, -⟩ := (mergeAllOf_static _ _ _ _ _ _).run_of_chain_eq hmerge rfl
        exact hpart (Visit.madeFrom_merged rfl hlabel hmerge) h
      · cases h
    | object schema =>
      cases h
      obtain ⟨label, hlabel⟩ := hlabelled rfl
      exact TypeSpelling.namesParts_ofObject hlabel rfl
    | primitive type minimum =>
      cases h
      exact TypeSpelling.namesParts_ofType _
    | _ => cases h

end SchemaBindings
