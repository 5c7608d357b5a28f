/-!
# Tables

Names bound to values, listed in the order in which the names were first bound. Binding a name
again replaces its value and keeps its place.
-/

namespace SchemaBindings

abbrev Table (α : Type) := List (String × α)

namespace Table

variable {α β : Type}

def get? (name : String) : List (String × α) → Option α
  | [] => none
  | (key, value) :: rest => if key = name then some value else get? name rest

def put (name : String) (value : α) : List (String × α) → List (String × α)
  | [] => [(name, value)]
  | (key, old) :: rest =>
    if key = name then (key, value) :: rest else (key, old) :: put name value rest

def ofList (entries : List (String × α)) : List (String × α) :=
  entries.foldl (fun table entry ↦ put entry.1 entry.2 table) []

def keys (table : List (String × α)) : List String := table.map (·.1)

def values (table : List (String × α)) : List α := table.map (·.2)

@[simp]
theorem get?_nil (name : String) : get? name ([] : List (String × α)) = none := rfl

@[simp]
theorem get?_put_self (name : String) (value : α) (table : List (String × α)) :
    get? name (put name value table) = some value := by
  induction table with
  | nil => simp [put, get?]
  | cons entry rest ih =>
    obtain ⟨key, old⟩ := entry
    by_cases h : key = name <;> simp [put, get?, h, ih]

theorem get?_put_of_ne {name other : String} (h : other ≠ name) (value : α)
    (table : List (String × α)) : get? other (put name value table) = get? other table := by
  induction table with
  | nil => simp [put, get?, Ne.symm h]
  | cons entry rest ih =>
    obtain ⟨key, old⟩ := entry
    by_cases hk : key = name
    · subst hk; simp [put, get?, Ne.symm h]
    · by_cases ho : key = other
      · subst ho; simp [put, get?, hk]
      · simp [put, get?, hk, ho, ih]

theorem mem_of_get?_eq_some {name : String} {value : α} {table : List (String × α)}
    (h : get? name table = some value) : (name, value) ∈ table := by
  induction table with
  | nil => simp at h
  | cons entry rest ih =>
    obtain ⟨key, old⟩ := entry
    by_cases hk : key = name
    · simp [get?, hk] at h
      simp [hk, h]
    · simp only [get?, hk, if_false] at h
      exact List.mem_cons_of_mem _ (ih h)

theorem get?_eq_none_iff {name : String} {table : List (String × α)} :
    get? name table = none ↔ name ∉ keys table := by
  induction table with
  | nil => simp [keys]
  | cons entry rest ih =>
    obtain ⟨key, old⟩ := entry
    by_cases hk : key = name
    · simp [get?, hk, keys]
    · simp only [get?, hk, if_false, ih, keys, List.map_cons, List.mem_cons, not_or]
      exact ⟨fun h ↦ ⟨Ne.symm hk, h⟩, fun h ↦ h.2⟩

/-- Under distinct names every entry is found by its name. -/
theorem get?_of_mem {name : String} {value : α} {table : List (String × α)}
    (hnames : (keys table).Nodup) (h : (name, value) ∈ table) : get? name table = some value := by
  induction table with
  | nil => cases h
  | cons entry rest ih =>
    obtain ⟨hfirst, hrest⟩ := List.nodup_cons.1 hnames
    obtain rfl | hmem := List.mem_cons.1 h
    · simp [get?]
    · have hname : name ∈ keys rest := List.mem_map_of_mem hmem
      have hne : entry.1 ≠ name := by
        rintro rfl
        exact hfirst hname
      rw [get?, if_neg hne]
      exact ih hrest hmem

theorem keys_put (name : String) (value : α) (table : List (String × α)) :
    keys (put name value table) =
      if name ∈ keys table then keys table else keys table ++ [name] := by
  induction table with
  | nil => simp [put, keys]
  | cons entry rest ih =>
    obtain ⟨key, old⟩ := entry
    by_cases hk : key = name
    · simp [put, keys, hk]
    · simp only [keys] at ih
      by_cases hmem : name ∈ rest.map (·.1)
      · simp [put, hk, keys, ih, hmem]
      · simp [put, hk, keys, ih, hmem, Ne.symm hk]

theorem sizeOf_lt_of_get?_eq_some [SizeOf α] {name : String} {value : α}
    {table : List (String × α)} (h : get? name table = some value) :
    sizeOf value < sizeOf table := by
  have hmem := List.sizeOf_lt_of_mem (mem_of_get?_eq_some h)
  have hpair : sizeOf (name, value) = 1 + sizeOf name + sizeOf value := rfl
  omega

/-- Binding a name brings in no entry but the new one. -/
theorem mem_put {name : String} {value : α} {table : List (String × α)} {entry : String × α}
    (h : entry ∈ put name value table) : entry = (name, value) ∨ entry ∈ table := by
  induction table with
  | nil => exact .inl (List.mem_singleton.1 h)
  | cons first rest ih =>
    obtain ⟨key, old⟩ := first
    rw [put] at h
    split at h
    case isTrue hkey =>
      subst hkey
      exact (List.mem_cons.1 h).imp id (List.mem_cons_of_mem _)
    case isFalse =>
      obtain rfl | hrest := List.mem_cons.1 h
      · exact .inr List.mem_cons_self
      · exact (ih hrest).imp id (List.mem_cons_of_mem _)

theorem nodup_keys_put {table : List (String × α)}
    (h : (keys table).Nodup) (name : String) (value : α) :
    (keys (put name value table)).Nodup := by
  rw [keys_put]
  split
  · exact h
  · exact List.nodup_append.2 ⟨h, List.pairwise_singleton _ name, by
      rintro key hkey _ hname rfl
      cases List.mem_singleton.1 hname
      contradiction⟩

/-- A table has no entries but those that it is made from. -/
theorem mem_ofList {entries : List (String × α)} {entry : String × α}
    (h : entry ∈ ofList entries) : entry ∈ entries := by
  have hstep : ∀ table : List (String × α), (∀ entry ∈ table, entry ∈ entries) →
      ∀ added ∈ entries, ∀ entry ∈ put added.1 added.2 table, entry ∈ entries :=
    fun table htable added hadded entry hentry ↦
      (mem_put hentry).elim (fun heq ↦ heq ▸ hadded) (htable entry)
  have hall : ∀ entry ∈ ofList entries, entry ∈ entries :=
    List.foldlRecOn (motive := fun table ↦ ∀ entry ∈ table, entry ∈ entries) entries _ nofun hstep
  exact hall entry h

theorem nodup_keys_ofList (entries : List (String × α)) : (keys (ofList entries)).Nodup :=
  List.foldlRecOn (motive := fun table ↦ (keys table).Nodup) entries _ List.nodup_nil
    fun _ htable added _ ↦ nodup_keys_put htable added.1 added.2

end Table

end SchemaBindings
