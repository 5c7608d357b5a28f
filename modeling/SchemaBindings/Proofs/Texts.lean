import SchemaBindings.Proofs.Mentions
import SchemaBindings.Schema.Document

/-!
# Schemas mention texts

A schema that is read from a document value mentions only texts that stand in the value, and a
fragment of a document holds only texts of the document. A document can therefore refer to
finitely many things, whatever part of it is read, and its property names are names in it.
-/

namespace SchemaBindings

namespace Json

mutual

/-- The texts anywhere in a value, the names of its entries among them. -/
def texts : Json → List String
  | string text => [text]
  | array items => itemTexts items
  | object entries => entryTexts entries
  | null => []
  | bool _ => []
  | number _ => []
  termination_by structural x => x

def itemTexts : List Json → List String
  | [] => []
  | item :: rest => item.texts ++ itemTexts rest
  termination_by structural x => x

def entryTexts : List (String × Json) → List String
  | [] => []
  | (name, value) :: rest => name :: (value.texts ++ entryTexts rest)
  termination_by structural x => x

end

variable {text : String}

theorem mem_itemTexts {items : List Json} :
    text ∈ itemTexts items ↔ ∃ item ∈ items, text ∈ item.texts := by
  induction items with
  | nil => simp [itemTexts]
  | cons item rest ih => simp [itemTexts, ih]

theorem mem_entryTexts_of_get? {key : String} {entries : List (String × Json)} {value : Json}
    (h : Table.get? key entries = some value) (htext : text ∈ value.texts) :
    text ∈ entryTexts entries := by
  induction entries with
  | nil => cases h
  | cons entry rest ih =>
    obtain ⟨name, first⟩ := entry
    rw [Table.get?] at h
    rw [entryTexts, List.mem_cons, List.mem_append]
    split at h
    · cases h
      exact .inr (.inl htext)
    · exact .inr (.inr (ih h))

theorem mem_texts_of_step? {value found : Json} {step : String}
    (h : value.step? step = some found) (htext : text ∈ found.texts) : text ∈ value.texts := by
  cases value with
  | object entries => exact mem_entryTexts_of_get? h htext
  | array items =>
    obtain ⟨position, -, hitem⟩ := Option.bind_eq_some_iff.1 h
    exact mem_itemTexts.2 ⟨found, List.mem_of_getElem? hitem, htext⟩
  | _ => cases h

theorem mem_texts_of_steps {value found : Json} {steps : List String}
    (h : steps.foldlM step? value = some found) (htext : text ∈ found.texts) :
    text ∈ value.texts := by
  induction steps generalizing value with
  | nil =>
    cases h
    exact htext
  | cons step rest ih =>
    rw [List.foldlM_cons] at h
    obtain ⟨next, hnext, hrest⟩ := Option.bind_eq_some_iff.1 h
    exact mem_texts_of_step? hnext (ih hrest)

theorem mem_texts_of_at? {value found : Json} {pointer : String}
    (h : value.at? pointer = some found) (htext : text ∈ found.texts) : text ∈ value.texts := by
  obtain ⟨steps, -, hsteps⟩ := Option.bind_eq_some_iff.1 h
  exact mem_texts_of_steps hsteps htext

end Json

theorem Document.mem_texts_of_fragment? {document : Document} {fragment text : String}
    {found : Json} (h : document.fragment? fragment = some found) (htext : text ∈ found.texts) :
    text ∈ document.content.texts := by
  unfold Document.fragment? at h
  split at h <;> exact Json.mem_texts_of_at? h htext

namespace Schema

def Form.texts : Form → List String
  | reference target => [target]
  | tuple items => Json.itemTexts items
  | single item => item.texts
  | composed _ members => Json.itemTexts members
  | object properties _ additional _ =>
    Json.entryTexts (properties.getD []) ++ (additional.map Json.texts).getD []
  | _ => []

variable {text : String} {entries : Entries}

theorem mem_texts_itemsForm (h : text ∈ (itemsForm entries).texts) :
    text ∈ Json.entryTexts entries := by
  unfold itemsForm at h
  split at h
  case h_1 items hitems => exact Json.mem_entryTexts_of_get? hitems h
  case h_2 item _ hitem => exact Json.mem_entryTexts_of_get? hitem h
  case h_3 => cases h

theorem mem_texts_objectForm (h : text ∈ (objectForm entries).texts) :
    text ∈ Json.entryTexts entries := by
  rw [objectForm, Form.texts, List.mem_append] at h
  obtain h | h := h
  · cases hproperties : (Table.get? "properties" entries).bind Json.asObject? with
    | none => rw [hproperties] at h; cases h
    | some properties =>
      rw [hproperties] at h
      obtain ⟨value, hvalue, hobject⟩ := Option.bind_eq_some_iff.1 hproperties
      cases value with
      | object found =>
        cases hobject
        exact Json.mem_entryTexts_of_get? hvalue h
      | _ => cases hobject
  · unfold additional? at h
    split at h
    case h_1 additional hadditional => exact Json.mem_entryTexts_of_get? hadditional h
    case h_2 => cases h

theorem mem_texts_shapeForm {path : String} {type : Option String} {f : Form}
    (hf : shapeForm path type entries = .ok f) (h : text ∈ f.texts) :
    text ∈ Json.entryTexts entries := by
  unfold shapeForm at hf
  split at hf
  · cases hf
    exact mem_texts_itemsForm h
  · split at hf
    case h_1 composition members hcomposition =>
      cases hf
      obtain ⟨c, -, hc⟩ := List.exists_of_findSome?_eq_some hcomposition
      obtain ⟨found, hfound, heq⟩ := Option.map_eq_some_iff.1 hc
      cases heq
      exact Json.mem_entryTexts_of_get? hfound h
    case h_2 => cases hf
    case h_3 =>
      split at hf <;> cases hf
      · exact mem_texts_objectForm h
      · unfold primitiveForm at h
        split at h <;> cases h

theorem mem_texts_form {path : String} {f : Form} (hf : form path entries = .ok f)
    (h : text ∈ f.texts) : text ∈ Json.entryTexts entries := by
  unfold form at hf
  split at hf
  case h_1 target htarget =>
    cases hf
    exact Json.mem_entryTexts_of_get? htarget h
  case h_2 => cases hf
  case h_3 =>
    split at hf
    case h_1 => cases hf; cases h
    case h_2 =>
      split at hf
      case h_1 type _ =>
        unfold typedForm at hf
        split at hf
        case h_1 values _ =>
          cases hcases : textCases path values <;> rw [hcases] at hf <;> cases hf
          cases h
        case h_2 => exact mem_texts_shapeForm hf h
      case h_2 => cases hf

end Schema

open Schema

theorem Node.read_object {path : String} {entries : Entries} {f : Form}
    (h : form path entries = .ok f) :
    Node.read path (.object entries) =
      (Kind.ofForm path f).map (.mk (text? "title" entries) (text? "description" entries)) := by
  rw [Node.read]
  split
  case h_1 hform => rw [h] at hform; cases hform
  case h_2 found hform =>
    rw [h] at hform
    cases hform
    rfl

theorem Node.read_object_error {path : String} {entries : Entries} {failure : Failure}
    (h : form path entries = .error failure) :
    Node.read path (.object entries) = .error failure := by
  rw [Node.read]
  split
  case h_1 found hform =>
    rw [h] at hform
    cases hform
    rfl
  case h_2 hform => rw [h] at hform; cases hform

theorem Node.read_object_eq_ok {path : String} {entries : Entries} {node : Node}
    (h : Node.read path (.object entries) = .ok node) :
    ∃ f kind, form path entries = .ok f ∧ Kind.ofForm path f = .ok kind ∧
      node = .mk (text? "title" entries) (text? "description" entries) kind := by
  cases hform : form path entries with
  | error failure =>
    rw [Node.read_object_error hform] at h
    cases h
  | ok f =>
    rw [Node.read_object hform] at h
    obtain ⟨kind, hkind, hread⟩ := Failure.map_eq_ok.1 h
    exact ⟨f, kind, rfl, hkind, hread.symm⟩

variable {m : Mention}

mutual

/-- Reading makes up nothing: what a schema mentions stands as a text in its value. -/
theorem Node.mem_texts_of_read {path : String} {value : Json} {node : Node}
    (h : Node.read path value = .ok node) (hm : m ∈ node.mentions) : m.text ∈ value.texts := by
  cases value with
  | object entries =>
    obtain ⟨f, kind, hform, hkind, rfl⟩ := Node.read_object_eq_ok h
    exact mem_texts_form hform (Kind.mem_texts_of_ofForm hkind hm)
  | bool _ =>
    rw [Node.read] at h
    cases h
    cases hm
  | _ =>
    unfold Node.read at h
    cases h
  termination_by 3 * sizeOf value
  decreasing_by
    subst_vars
    have := size_form_lt hform
    simp only [Json.object.sizeOf_spec]
    omega

theorem Kind.mem_texts_of_ofForm {path : String} {f : Form} {kind : Kind}
    (h : Kind.ofForm path f = .ok kind) (hm : m ∈ kind.mentions) : m.text ∈ f.texts := by
  cases f with
  | reference target =>
    rw [Kind.ofForm] at h
    cases h
    rw [Kind.mentions, List.mem_singleton] at hm
    rw [hm]
    exact List.mem_singleton_self target
  | tuple items =>
    rw [Kind.ofForm] at h
    obtain ⟨found, hitems, hread⟩ := Failure.bind_eq_ok.1 h
    cases hread
    exact mem_texts_of_readList hitems hm
  | single item =>
    rw [Kind.ofForm] at h
    obtain ⟨found, hitem, hread⟩ := Failure.bind_eq_ok.1 h
    cases hread
    exact Node.mem_texts_of_read hitem hm
  | composed composition members =>
    rw [Kind.ofForm] at h
    obtain ⟨found, hmembers, hread⟩ := Failure.bind_eq_ok.1 h
    cases hread
    have hfound : m ∈ listMentions found := by cases composition <;> exact hm
    exact mem_texts_of_readList hmembers hfound
  | object properties required additional pattern =>
    rw [Kind.ofForm] at h
    obtain ⟨found, hproperties, hrest⟩ := Failure.bind_eq_ok.1 h
    obtain ⟨foundAdditional, hadditional, hread⟩ := Failure.bind_eq_ok.1 hrest
    cases hread
    rw [Form.texts, List.mem_append]
    obtain hfound | ⟨node, hnode, hmentioned⟩ := ObjectSchema.mem_mentions.1 hm
    · exact .inl (mem_texts_of_readProperties hproperties hfound)
    · cases hnode
      exact .inr (mem_texts_of_readAdditional hadditional hmentioned)
  | _ =>
    rw [Kind.ofForm] at h
    cases h
    cases hm
  termination_by 3 * f.size + 2
  decreasing_by
    all_goals
      subst_vars
      simp only [Form.size]
      omega

theorem mem_texts_of_readAdditional {path : String} {additional : Option Json} {node : Node}
    (h : readAdditional path additional = .ok (some node)) (hm : m ∈ node.mentions) :
    m.text ∈ (additional.map Json.texts).getD [] := by
  cases additional with
  | none =>
    rw [readAdditional] at h
    cases h
  | some value =>
    rw [readAdditional] at h
    obtain ⟨found, hvalue, hread⟩ := Failure.map_eq_ok.1 h
    cases hread
    exact Node.mem_texts_of_read hvalue hm
  termination_by 3 * (additional.map sizeOf).getD 0 + 1
  decreasing_by
    subst_vars
    exact Nat.lt_succ_self _

theorem mem_texts_of_readProperties {path : String} {properties : Option Entries}
    {found : Option (List (String × Node))} (h : readProperties path properties = .ok found)
    (hm : m ∈ propertyMentions (found.getD [])) :
    m.text ∈ Json.entryTexts (properties.getD []) := by
  cases properties with
  | none =>
    rw [readProperties] at h
    cases h
    cases hm
  | some entries =>
    rw [readProperties] at h
    obtain ⟨nodes, hentries, hread⟩ := Failure.map_eq_ok.1 h
    cases hread
    exact mem_texts_of_readEntries hentries hm
  termination_by 3 * (properties.map sizeOf).getD 0 + 1
  decreasing_by
    subst_vars
    exact Nat.lt_succ_self _

theorem mem_texts_of_readEntries {path : String} {entries : Entries}
    {found : List (String × Node)} (h : readEntries path entries = .ok found)
    (hm : m ∈ propertyMentions found) : m.text ∈ Json.entryTexts entries := by
  cases entries with
  | nil =>
    rw [readEntries] at h
    cases h
    cases hm
  | cons entry rest =>
    rcases hentry : entry with ⟨name, value⟩
    rw [hentry, readEntries] at h
    obtain ⟨node, hvalue, hread⟩ := Failure.bind_eq_ok.1 h
    obtain ⟨nodes, hrest, hboth⟩ := Failure.bind_eq_ok.1 hread
    cases hboth
    rw [propertyMentions, List.mem_cons, List.mem_append] at hm
    rw [Json.entryTexts, List.mem_cons, List.mem_append]
    obtain hname | hnode | hnodes := hm
    · left
      rw [hname]
      rfl
    · exact .inr (.inl (Node.mem_texts_of_read hvalue hnode))
    · exact .inr (.inr (mem_texts_of_readEntries hrest hnodes))
  termination_by 3 * sizeOf entries
  decreasing_by
    · subst_vars; simp only [List.cons.sizeOf_spec, Prod.mk.sizeOf_spec]; omega
    · subst_vars; simp only [List.cons.sizeOf_spec]; omega

theorem mem_texts_of_readList {path : String} {position : Nat} {items : List Json}
    {found : List Node} (h : readList path position items = .ok found)
    (hm : m ∈ listMentions found) : m.text ∈ Json.itemTexts items := by
  cases items with
  | nil =>
    rw [readList] at h
    cases h
    cases hm
  | cons item rest =>
    rw [readList] at h
    obtain ⟨node, hitem, hread⟩ := Failure.bind_eq_ok.1 h
    obtain ⟨nodes, hrest, hboth⟩ := Failure.bind_eq_ok.1 hread
    cases hboth
    rw [listMentions, List.mem_append] at hm
    rw [Json.itemTexts, List.mem_append]
    obtain hnode | hnodes := hm
    · exact .inl (Node.mem_texts_of_read hitem hnode)
    · exact .inr (mem_texts_of_readList hrest hnodes)
  termination_by 3 * sizeOf items
  decreasing_by
    · subst_vars; simp only [List.cons.sizeOf_spec]; omega
    · subst_vars; simp only [List.cons.sizeOf_spec]; omega

end

end SchemaBindings
