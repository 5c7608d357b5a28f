import Mathlib.Data.List.Perm.Subperm
import SchemaBindings.Proofs.Properties

/-!
# Equal values and equal schemas

Two values are the same if they differ at most in the order of entries and in the signs of zeros,
and two schemas if they differ at most in that and in the order of properties. Where the entries of
every object have distinct names both are equivalences, and tables of such entries are compared name
by name.
-/

namespace SchemaBindings

/-! ## Relations of optional values and of lists -/

section Relations

variable {α : Type} {r s t : α → α → Prop}

theorem rel_refl {x : Option α} (h : ∀ value, x = some value → r value value) :
    Option.Rel r x x := by
  cases x with
  | none => exact .none
  | some value => exact .some (h value rfl)

theorem rel_symm {x y : Option α} (hxy : Option.Rel r x y)
    (h : ∀ a b, x = some a → r a b → s b a) : Option.Rel s y x := by
  cases hxy with
  | none => exact .none
  | some hab => exact .some (h _ _ rfl hab)

theorem rel_trans {x y z : Option α} (hxy : Option.Rel r x y) (hyz : Option.Rel s y z)
    (h : ∀ a b c, x = some a → r a b → s b c → t a c) : Option.Rel t x z := by
  cases hxy with
  | none =>
    cases hyz
    exact .none
  | some hab =>
    cases hyz with
    | some hbc => exact .some (h _ _ _ rfl hab hbc)

theorem exists_of_rel {x y : Option α} (hxy : Option.Rel r x y) {a : α} (ha : x = some a) :
    ∃ b, y = some b ∧ r a b := by
  cases hxy with
  | none => cases ha
  | some hab =>
    cases ha
    exact ⟨_, rfl, hab⟩

theorem isSome_of_rel {x y : Option α} (hxy : Option.Rel r x y) (h : x.isSome) : y.isSome := by
  cases hxy with
  | none => exact h
  | some => rfl

theorem related_of_rel {x y : Option α} (hxy : Option.Rel r x y) {a b : α} (ha : x = some a)
    (hb : y = some b) : r a b := by
  obtain ⟨_, hsome, hrelated⟩ := exists_of_rel hxy ha
  cases hb.symm.trans hsome
  exact hrelated

theorem forall₂_symm {xs ys : List α} (hxy : List.Forall₂ r xs ys)
    (h : ∀ x ∈ xs, ∀ y, r x y → s y x) : List.Forall₂ s ys xs := by
  induction hxy with
  | nil => exact .nil
  | cons hhead _ ih =>
    obtain ⟨hfirst, hrest⟩ := List.forall_mem_cons.1 h
    exact .cons (hfirst _ hhead) (ih hrest)

theorem forall₂_trans {xs ys zs : List α} (hxy : List.Forall₂ r xs ys)
    (hyz : List.Forall₂ s ys zs) (h : ∀ x ∈ xs, ∀ y z, r x y → s y z → t x z) :
    List.Forall₂ t xs zs := by
  induction hxy generalizing zs with
  | nil =>
    cases hyz
    exact .nil
  | cons hhead _ ih =>
    obtain ⟨hfirst, hrest⟩ := List.forall_mem_cons.1 h
    cases hyz with
    | cons hnext htail => exact .cons (hfirst _ _ hhead hnext) (ih htail hrest)

theorem exists_of_mem_forall₂ {xs ys : List α} (hxy : List.Forall₂ r xs ys) {y : α}
    (hy : y ∈ ys) : ∃ x ∈ xs, r x y := by
  induction hxy with
  | nil => cases hy
  | cons hhead _ ih =>
    obtain rfl | hrest := List.mem_cons.1 hy
    · exact ⟨_, .head _, hhead⟩
    · obtain ⟨x, hx, hrelated⟩ := ih hrest
      exact ⟨x, .tail _ hx, hrelated⟩

end Relations

/-! ## Tables -/

namespace Table

variable {α : Type} {name : String} {value : α} {left right last : List (String × α)}
  {r s t : α → α → Prop}

theorem mem_keys_of_get? (h : get? name left = some value) : name ∈ keys left :=
  List.mem_map_of_mem (mem_of_get?_eq_some h)

/-- Every name has related values in both tables, or a value in neither. -/
def Agree (r : α → α → Prop) (left right : List (String × α)) : Prop :=
  ∀ name, Option.Rel r (get? name left) (get? name right)

namespace Agree

theorem refl_of (h : ∀ entry ∈ left, r entry.2 entry.2) : Agree r left left :=
  fun _ ↦ rel_refl fun _ hvalue ↦ h _ (mem_of_get?_eq_some hvalue)

theorem symm_of (hagree : Agree r left right) (h : ∀ entry ∈ left, ∀ y, r entry.2 y → s y entry.2) :
    Agree s right left :=
  fun name ↦ rel_symm (hagree name) fun _ y hvalue ↦ h _ (mem_of_get?_eq_some hvalue) y

theorem trans_of (hfirst : Agree r left right) (hsecond : Agree s right last)
    (h : ∀ entry ∈ left, ∀ y z, r entry.2 y → s y z → t entry.2 z) : Agree t left last :=
  fun name ↦ rel_trans (hfirst name) (hsecond name) fun _ y z hvalue ↦
    h _ (mem_of_get?_eq_some hvalue) y z

theorem mem_keys_iff (h : Agree r left right) : name ∈ keys left ↔ name ∈ keys right := by
  have hnone : get? name left = none ↔ get? name right = none := by
    have hname := h name
    generalize get? name left = x at hname
    generalize get? name right = y at hname
    cases hname <;> simp
  rw [get?_eq_none_iff, get?_eq_none_iff] at hnone
  exact not_iff_not.1 hnone

theorem left_of_right (h : Agree r left right) (hvalue : get? name right = some value) :
    ∃ other, get? name left = some other ∧ r other value := by
  have hname := h name
  rw [hvalue] at hname
  generalize get? name left = found at hname
  cases hname with
  | some hrelated => exact ⟨_, rfl, hrelated⟩

theorem length_eq (h : Agree r left right) (hleft : (keys left).Nodup)
    (hright : (keys right).Nodup) : left.length = right.length := by
  have hperm : (keys left).Perm (keys right) :=
    (List.perm_ext_iff_of_nodup hleft hright).2 fun _ ↦ h.mem_keys_iff
  simpa [keys] using hperm.length_eq

/-- Two tables of one length agree if the second has a related value for every entry of the first.
The names of the second are then distinct as well. -/
theorem of_entries (hleft : (keys left).Nodup) (hlength : left.length = right.length)
    (h : ∀ entry ∈ left, ∃ value, get? entry.1 right = some value ∧ r entry.2 value) :
    Agree r left right ∧ (keys right).Nodup := by
  have hsubset : keys left ⊆ keys right := by
    intro name hname
    obtain ⟨entry, hentry, rfl⟩ := List.mem_map.1 hname
    obtain ⟨value, hvalue, -⟩ := h entry hentry
    exact mem_keys_of_get? hvalue
  have hperm : (keys left).Perm (keys right) :=
    (List.subperm_of_subset hleft hsubset).perm_of_length_le (by simp [keys, hlength])
  refine ⟨fun name ↦ ?_, hperm.nodup_iff.1 hleft⟩
  cases hget : get? name left with
  | none =>
    have hname : name ∉ keys right := fun hmem ↦
      get?_eq_none_iff.1 hget (hperm.mem_iff.2 hmem)
    rw [get?_eq_none_iff.2 hname]
    exact .none
  | some value =>
    obtain ⟨other, hother, hrelated⟩ := h _ (mem_of_get?_eq_some hget)
    rw [hother]
    exact .some hrelated

theorem entries (h : Agree r left right) (hleft : (keys left).Nodup) :
    ∀ entry ∈ left, ∃ value, get? entry.1 right = some value ∧ r entry.2 value :=
  fun _ hentry ↦ exists_of_rel (h _) (get?_of_mem hleft hentry)

end Agree

end Table

/-! ## Values -/

theorem Double.same_trans {x y z : Double} (hxy : x.same y) (hyz : y.same z) : x.same z := by
  simp only [same, Bool.or_eq_true, beq_iff_eq, Bool.and_eq_true] at *
  obtain rfl | ⟨hx, hy⟩ := hxy
  · exact hyz
  · obtain rfl | ⟨-, hz⟩ := hyz
    · exact .inr ⟨hx, hy⟩
    · exact .inr ⟨hx, hz⟩

theorem sameMinimum_refl (m : Option Double) : sameMinimum m m := by
  cases m with
  | none => rfl
  | some x => exact x.same_refl

theorem sameMinimum_comm (m n : Option Double) : sameMinimum m n = sameMinimum n m := by
  cases m <;> cases n <;> first | rfl | exact Double.same_comm _ _

theorem sameMinimum_trans {l m n : Option Double} (hlm : sameMinimum l m)
    (hmn : sameMinimum m n) : sameMinimum l n := by
  cases l <;> cases m <;> try cases hlm
  all_goals cases n <;> first | rfl | try cases hmn
  exact Double.same_trans hlm hmn

namespace Json

theorem Number.same_refl (x : Number) : x.same x := by
  cases x with
  | whole value => exact beq_self_eq_true value
  | double value => exact value.same_refl

theorem Number.same_comm (x y : Number) : x.same y = y.same x := by
  cases x <;> cases y <;> first | rfl | exact BEq.comm | exact Double.same_comm _ _

theorem Number.same_trans {x y z : Number} (hxy : x.same y) (hyz : y.same z) : x.same z := by
  cases x <;> cases y <;> try cases hxy
  all_goals cases z <;> try cases hyz
  · simp only [Number.same, beq_iff_eq] at *
    exact hxy.trans hyz
  · exact Double.same_trans hxy hyz

theorem sameItems_iff {left right : List Json} :
    sameItems left right ↔ List.Forall₂ (fun x y ↦ same x y) left right := by
  induction left generalizing right with
  | nil => cases right <;> simp [sameItems]
  | cons first rest ih => cases right <;> simp [sameItems, ih]

theorem sameEntries_iff {left right : List (String × Json)} :
    sameEntries left right ↔
      ∀ entry ∈ left, ∃ value, Table.get? entry.1 right = some value ∧ same entry.2 value := by
  induction left with
  | nil => simp [sameEntries]
  | cons entry rest ih =>
    rw [sameEntries, Bool.and_eq_true, List.forall_mem_cons, ih]
    cases Table.get? entry.1 right <;> simp

variable {left right : List (String × Json)}

/-- Objects with distinct names are the same if they have the same values under the same names. -/
theorem same_object (hleft : (Table.keys left).Nodup) (h : same (.object left) (.object right)) :
    Table.Agree (fun x y ↦ same x y) left right ∧ (Table.keys right).Nodup := by
  simp only [same, Bool.and_eq_true, beq_iff_eq, sameEntries_iff] at h
  exact Table.Agree.of_entries hleft h.1 h.2

theorem same_object_of_agree (hleft : (Table.keys left).Nodup) (hright : (Table.keys right).Nodup)
    (h : Table.Agree (fun x y ↦ same x y) left right) : same (.object left) (.object right) := by
  simp only [same, Bool.and_eq_true, beq_iff_eq, sameEntries_iff]
  exact ⟨h.length_eq hleft hright, h.entries hleft⟩

end Json

namespace Json.Distinct

variable {x y z : Json}

theorem same_refl (h : x.Distinct) : x.same x := by
  induction h with
  | null => rfl
  | bool => exact beq_self_eq_true _
  | number value => exact value.same_refl
  | string => exact beq_self_eq_true _
  | array _ ih => exact sameItems_iff.2 (List.forall₂_same.2 ih)
  | object hnames _ ih => exact same_object_of_agree hnames hnames (.refl_of ih)

theorem same_symm (hx : x.Distinct) (h : x.same y) : y.same x := by
  induction hx generalizing y with
  | null => cases y <;> first | rfl | cases h
  | bool =>
    cases y <;> try cases h
    exact BEq.comm.trans h
  | number value =>
    cases y <;> try cases h
    exact (Number.same_comm _ _).trans h
  | string =>
    cases y <;> try cases h
    exact BEq.comm.trans h
  | array _ ih =>
    cases y <;> try cases h
    exact sameItems_iff.2 (forall₂_symm (sameItems_iff.1 h) fun x hx y ↦ ih x hx)
  | object hnames _ ih =>
    cases y <;> try cases h
    obtain ⟨hagree, hothers⟩ := same_object hnames h
    exact same_object_of_agree hothers hnames (hagree.symm_of fun entry hentry y ↦ ih entry hentry)

theorem same_trans (hx : x.Distinct) (hxy : x.same y) (hyz : y.same z) : x.same z := by
  induction hx generalizing y z with
  | null => cases y <;> first | exact hyz | cases hxy
  | bool =>
    cases y <;> try cases hxy
    cases eq_of_beq hxy
    exact hyz
  | number value =>
    cases y <;> try cases hxy
    cases z <;> try cases hyz
    exact Number.same_trans hxy hyz
  | string =>
    cases y <;> try cases hxy
    cases eq_of_beq hxy
    exact hyz
  | array _ ih =>
    cases y <;> try cases hxy
    cases z <;> try cases hyz
    exact sameItems_iff.2 (forall₂_trans (sameItems_iff.1 hxy) (sameItems_iff.1 hyz)
      fun x hx y z ↦ ih x hx)
  | object hnames _ ih =>
    cases y <;> try cases hxy
    cases z <;> try cases hyz
    obtain ⟨hfirst, hsecond⟩ := same_object hnames hxy
    obtain ⟨hnext, hthird⟩ := same_object hsecond hyz
    exact same_object_of_agree hnames hthird
      (hfirst.trans_of hnext fun entry hentry y z ↦ ih entry hentry)

/-- What is the same has distinct names as well. -/
theorem of_same (hx : x.Distinct) (h : x.same y) : y.Distinct := by
  induction hx generalizing y with
  | array _ ih =>
    cases y <;> try cases h
    refine .array fun other hother ↦ ?_
    obtain ⟨item, hitem, hsame⟩ := exists_of_mem_forall₂ (sameItems_iff.1 h) hother
    exact ih item hitem hsame
  | object hnames _ ih =>
    cases y <;> try cases h
    obtain ⟨hagree, hothers⟩ := same_object hnames h
    refine .object hothers fun entry hentry ↦ ?_
    obtain ⟨value, hvalue, hsame⟩ := hagree.left_of_right (Table.get?_of_mem hothers hentry)
    exact ih _ (Table.mem_of_get?_eq_some hvalue) hsame
  | null =>
    cases y <;> try cases h
    exact .null
  | bool =>
    cases y <;> try cases h
    exact .bool _
  | number =>
    cases y <;> try cases h
    exact .number _
  | string =>
    cases y <;> try cases h
    exact .string _

end Json.Distinct

/-! ## Equal schemas -/

/-- Two objects have related schemas in the same places, and agree in everything else. -/
structure ObjectSchema.Matches (r : Node → Node → Prop) (left right : ObjectSchema) : Prop where
  properties : left.properties.isSome = right.properties.isSome
  members : Table.Agree r left.members right.members
  required : left.required = right.required
  additional : Option.Rel r left.additional right.additional
  pattern : left.pattern = right.pattern

/-- Two kinds are made of related schemas in the same way. -/
inductive Kind.Matches (r : Node → Node → Prop) : Kind → Kind → Prop
  | reference (target : String) : Matches r (.reference target) (.reference target)
  | constant {a b : Json} {m n : Option Double} (hvalue : a.same b)
      (hminimum : sameMinimum m n) : Matches r (.constant a m) (.constant b n)
  | enumeration (values : List String) : Matches r (.enumeration values) (.enumeration values)
  | object {a b : ObjectSchema} (h : a.Matches r b) : Matches r (.object a) (.object b)
  | single {a b : Node} (h : r a b) : Matches r (.array (.single a)) (.array (.single b))
  | tuple {a b : List Node} (h : List.Forall₂ r a b) :
      Matches r (.array (.tuple a)) (.array (.tuple b))
  | allOf {a b : List Node} (h : List.Forall₂ r a b) : Matches r (.allOf a) (.allOf b)
  | oneOf {a b : List Node} (h : List.Forall₂ r a b) : Matches r (.oneOf a) (.oneOf b)
  | anyOf {a b : List Node} (h : List.Forall₂ r a b) : Matches r (.anyOf a) (.anyOf b)
  | primitive (type : Primitive) {m n : Option Double} (hminimum : sameMinimum m n) :
      Matches r (.primitive type m) (.primitive type n)
  | unconstrained : Matches r .unconstrained .unconstrained

theorem Node.same_iff {left right : Node} : left.same right ↔
    left.title = right.title ∧ left.description = right.description ∧
      left.kind.same right.kind := by
  obtain ⟨title, description, kind⟩ := left
  simp [Node.same, and_assoc]

theorem sameNodes_iff {left right : List Node} :
    sameNodes left right ↔ List.Forall₂ (fun a b ↦ a.same b) left right := by
  induction left generalizing right with
  | nil => cases right <;> simp [sameNodes]
  | cons first rest ih => cases right <;> simp [sameNodes, ih]

theorem sameProperties_iff {left right : List (String × Node)} :
    sameProperties left right ↔
      ∀ entry ∈ left, ∃ node, Table.get? entry.1 right = some node ∧ entry.2.same node := by
  induction left with
  | nil => simp [sameProperties]
  | cons entry rest ih =>
    rw [sameProperties, Bool.and_eq_true, List.forall_mem_cons, ih]
    cases Table.get? entry.1 right <;> simp

theorem ObjectSchema.same_iff {left right : ObjectSchema} : left.same right ↔
    Option.Rel (fun a b ↦ a.length = b.length ∧ ∀ entry ∈ a, ∃ node,
      Table.get? entry.1 b = some node ∧ entry.2.same node) left.properties right.properties ∧
    left.required = right.required ∧
    Option.Rel (fun a b ↦ a.same b) left.additional right.additional ∧
    left.pattern = right.pattern := by
  obtain ⟨properties, required, additional, pattern⟩ := left
  obtain ⟨properties', required', additional', pattern'⟩ := right
  cases properties <;> cases additional <;> cases properties' <;> cases additional' <;>
    simp [ObjectSchema.same, ObjectSchema.properties, ObjectSchema.required,
      ObjectSchema.additional, ObjectSchema.pattern, sameProperties_iff, and_assoc]

/-- Objects with distinct names are the same if they have the same schemas in the same places. -/
theorem ObjectSchema.matches_of_same {left right : ObjectSchema}
    (hleft : (Table.keys left.members).Nodup) (h : left.same right) :
    left.Matches (fun a b ↦ a.same b) right ∧ (Table.keys right.members).Nodup := by
  rw [ObjectSchema.same_iff] at h
  obtain ⟨hproperties, hrequired, hadditional, hpattern⟩ := h
  obtain ⟨properties, required, additional, pattern⟩ := left
  obtain ⟨properties', required', additional', pattern'⟩ := right
  cases hproperties with
  | none => exact ⟨⟨rfl, fun _ ↦ .none, hrequired, hadditional, hpattern⟩, List.nodup_nil⟩
  | some h =>
    obtain ⟨hagree, hnames⟩ :=
      Table.Agree.of_entries (r := fun a b : Node ↦ a.same b) hleft h.1 h.2
    exact ⟨⟨rfl, hagree, hrequired, hadditional, hpattern⟩, hnames⟩

theorem ObjectSchema.same_of_matches {left right : ObjectSchema}
    (hleft : (Table.keys left.members).Nodup) (hright : (Table.keys right.members).Nodup)
    (h : left.Matches (fun a b ↦ a.same b) right) : left.same right := by
  obtain ⟨hproperties, hmembers, hrequired, hadditional, hpattern⟩ := h
  refine ObjectSchema.same_iff.2 ⟨?_, hrequired, hadditional, hpattern⟩
  obtain ⟨properties, required, additional, pattern⟩ := left
  obtain ⟨properties', required', additional', pattern'⟩ := right
  cases properties <;> cases properties' <;> try cases hproperties
  · exact .none
  · exact .some ⟨hmembers.length_eq hleft hright, hmembers.entries hleft⟩

namespace Kind

variable {left right last : Kind}

theorem matches_of_same (hleft : left.HasNames) (h : left.same right) :
    left.Matches (fun a b ↦ a.same b) right := by
  cases left with
  | reference =>
    cases right <;> try cases h
    cases eq_of_beq h
    exact .reference _
  | constant =>
    cases right <;> try cases h
    simp only [Kind.same, Bool.and_eq_true] at h
    exact .constant h.1 h.2
  | enumeration =>
    cases right <;> try cases h
    cases eq_of_beq h
    exact .enumeration _
  | object =>
    cases right <;> try cases h
    exact .object (ObjectSchema.matches_of_same hleft h).1
  | array items =>
    cases right <;> try cases h
    rename_i others
    cases items <;> cases others <;> try cases h
    · exact .single h
    · exact .tuple (sameNodes_iff.1 h)
  | allOf =>
    cases right <;> try cases h
    exact .allOf (sameNodes_iff.1 h)
  | oneOf =>
    cases right <;> try cases h
    exact .oneOf (sameNodes_iff.1 h)
  | anyOf =>
    cases right <;> try cases h
    exact .anyOf (sameNodes_iff.1 h)
  | primitive =>
    cases right <;> try cases h
    simp only [Kind.same, Bool.and_eq_true, beq_iff_eq] at h
    cases h.1
    exact .primitive _ h.2
  | unconstrained =>
    cases right <;> cases h
    exact .unconstrained

theorem same_of_matches (hleft : left.HasNames) (hright : right.HasNames)
    (h : left.Matches (fun a b ↦ a.same b) right) : left.same right := by
  cases h with
  | reference => exact beq_self_eq_true _
  | constant hvalue hminimum => simp [Kind.same, hvalue, hminimum]
  | enumeration => exact beq_self_eq_true _
  | object h => exact ObjectSchema.same_of_matches hleft hright h
  | single h => exact h
  | tuple h => exact sameNodes_iff.2 h
  | allOf h => exact sameNodes_iff.2 h
  | oneOf h => exact sameNodes_iff.2 h
  | anyOf h => exact sameNodes_iff.2 h
  | primitive type hminimum => simp [Kind.same, hminimum]
  | unconstrained => rfl

variable {r s t : Node → Node → Prop}

theorem matches_refl (hnames : left.HasNames) (h : ∀ node ∈ left.inner, r node node) :
    left.Matches r left := by
  cases left with
  | reference => exact .reference _
  | constant => exact .constant hnames.same_refl (sameMinimum_refl _)
  | enumeration => exact .enumeration _
  | object schema =>
    exact .object ⟨rfl, .refl_of fun entry hentry ↦ h _ (ObjectSchema.property_mem_inner hentry),
      rfl, rel_refl fun node hnode ↦ h _ (ObjectSchema.additional_mem_inner hnode), rfl⟩
  | array items =>
    cases items with
    | single item => exact .single (h item (.head _))
    | tuple items => exact .tuple (List.forall₂_same.2 h)
  | allOf => exact .allOf (List.forall₂_same.2 h)
  | oneOf => exact .oneOf (List.forall₂_same.2 h)
  | anyOf => exact .anyOf (List.forall₂_same.2 h)
  | primitive => exact .primitive _ (sameMinimum_refl _)
  | unconstrained => exact .unconstrained

theorem Matches.symm_of (hmatches : left.Matches r right) (hnames : left.HasNames)
    (h : ∀ node ∈ left.inner, ∀ other, r node other → s other node) : right.Matches s left := by
  cases hmatches with
  | reference => exact .reference _
  | constant hvalue hminimum =>
    exact .constant (hnames.same_symm hvalue) ((sameMinimum_comm _ _).trans hminimum)
  | enumeration => exact .enumeration _
  | object hobject =>
    obtain ⟨hproperties, hmembers, hrequired, hadditional, hpattern⟩ := hobject
    refine .object ⟨hproperties.symm, ?_, hrequired.symm, ?_, hpattern.symm⟩
    · exact hmembers.symm_of fun entry hentry ↦ h _ (ObjectSchema.property_mem_inner hentry)
    · exact rel_symm hadditional fun node other hnode ↦
        h _ (ObjectSchema.additional_mem_inner hnode) other
  | single hitem => exact .single (h _ (.head _) _ hitem)
  | tuple hitems => exact .tuple (forall₂_symm hitems h)
  | allOf hmembers => exact .allOf (forall₂_symm hmembers h)
  | oneOf hmembers => exact .oneOf (forall₂_symm hmembers h)
  | anyOf hmembers => exact .anyOf (forall₂_symm hmembers h)
  | primitive type hminimum => exact .primitive type ((sameMinimum_comm _ _).trans hminimum)
  | unconstrained => exact .unconstrained

theorem Matches.trans_of (hfirst : left.Matches r right) (hsecond : right.Matches s last)
    (hnames : left.HasNames)
    (h : ∀ node ∈ left.inner, ∀ y z, r node y → s y z → t node z) : left.Matches t last := by
  cases hfirst with
  | reference =>
    cases hsecond
    exact .reference _
  | constant hvalue hminimum =>
    cases hsecond with
    | constant hvalue' hminimum' =>
      exact .constant (hnames.same_trans hvalue hvalue') (sameMinimum_trans hminimum hminimum')
  | enumeration =>
    cases hsecond
    exact .enumeration _
  | object hobject =>
    cases hsecond with
    | object hobject' =>
      refine .object ⟨hobject.properties.trans hobject'.properties, ?_,
        hobject.required.trans hobject'.required, ?_, hobject.pattern.trans hobject'.pattern⟩
      · exact hobject.members.trans_of hobject'.members fun entry hentry ↦
          h _ (ObjectSchema.property_mem_inner hentry)
      · exact rel_trans hobject.additional hobject'.additional fun node y z hnode ↦
          h _ (ObjectSchema.additional_mem_inner hnode) y z
  | single hitem =>
    cases hsecond with
    | single hitem' => exact .single (h _ (.head _) _ _ hitem hitem')
  | tuple hitems =>
    cases hsecond with
    | tuple hitems' => exact .tuple (forall₂_trans hitems hitems' h)
  | allOf hmembers =>
    cases hsecond with
    | allOf hmembers' => exact .allOf (forall₂_trans hmembers hmembers' h)
  | oneOf hmembers =>
    cases hsecond with
    | oneOf hmembers' => exact .oneOf (forall₂_trans hmembers hmembers' h)
  | anyOf hmembers =>
    cases hsecond with
    | anyOf hmembers' => exact .anyOf (forall₂_trans hmembers hmembers' h)
  | primitive type hminimum =>
    cases hsecond with
    | primitive _ hminimum' => exact .primitive type (sameMinimum_trans hminimum hminimum')
  | unconstrained =>
    cases hsecond
    exact .unconstrained

/-- What is made of the same has distinct names as well. -/
theorem HasNames.of_same (hleft : left.HasNames) (h : left.same right) : right.HasNames := by
  cases left with
  | constant value minimum =>
    cases right <;> try cases h
    simp only [Kind.same, Bool.and_eq_true] at h
    exact hleft.of_same h.1
  | object =>
    cases right <;> try cases h
    exact (ObjectSchema.matches_of_same hleft h).2
  | array items =>
    cases right <;> try cases h
    trivial
  | _ =>
    cases right <;> try cases h
    all_goals trivial

end Kind

namespace Kind.Regular

variable {left right last : Kind}

theorem same_refl (h : left.Regular) : left.same left := by
  induction h with
  | intro here _ ih =>
    exact same_of_matches here here (matches_refl here fun node hnode ↦
      Node.same_iff.2 ⟨rfl, rfl, ih node hnode⟩)

theorem same_symm (hleft : left.Regular) (h : left.same right) : right.same left := by
  induction hleft generalizing right with
  | intro here _ ih =>
    refine same_of_matches (here.of_same h) here ((matches_of_same here h).symm_of here ?_)
    intro node hnode other hsame
    obtain ⟨htitle, hdescription, hkind⟩ := Node.same_iff.1 hsame
    exact Node.same_iff.2 ⟨htitle.symm, hdescription.symm, ih node hnode hkind⟩

theorem same_trans (hleft : left.Regular) (hfirst : left.same right) (hsecond : right.same last) :
    left.same last := by
  induction hleft generalizing right last with
  | intro here _ ih =>
    have hright := here.of_same hfirst
    refine same_of_matches here (hright.of_same hsecond)
      ((matches_of_same here hfirst).trans_of (matches_of_same hright hsecond) here ?_)
    intro node hnode y z hy hz
    obtain ⟨htitle, hdescription, hkind⟩ := Node.same_iff.1 hy
    obtain ⟨htitle', hdescription', hkind'⟩ := Node.same_iff.1 hz
    exact Node.same_iff.2 ⟨htitle.trans htitle', hdescription.trans hdescription',
      ih node hnode hkind hkind'⟩

end Kind.Regular

namespace Node

variable {left right last : Node}

theorem same_refl (h : left.kind.Regular) : left.same left :=
  same_iff.2 ⟨rfl, rfl, h.same_refl⟩

theorem same_symm (hleft : left.kind.Regular) (h : left.same right) : right.same left := by
  obtain ⟨htitle, hdescription, hkind⟩ := same_iff.1 h
  exact same_iff.2 ⟨htitle.symm, hdescription.symm, hleft.same_symm hkind⟩

theorem same_trans (hleft : left.kind.Regular) (hfirst : left.same right)
    (hsecond : right.same last) : left.same last := by
  obtain ⟨htitle, hdescription, hkind⟩ := same_iff.1 hfirst
  obtain ⟨htitle', hdescription', hkind'⟩ := same_iff.1 hsecond
  exact same_iff.2 ⟨htitle.trans htitle', hdescription.trans hdescription',
    hleft.same_trans hkind hkind'⟩

end Node

end SchemaBindings
