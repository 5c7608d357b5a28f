import SchemaBindings.Table

/-!
# Configuration values

The values of a configuration text: texts, numbers, truth values, dates, lists and tables. Of
dates nothing is kept but that they are such, and of numbers whether they can be read. A value
that is asked for nothing still has to be readable.
-/

namespace SchemaBindings

inductive Toml where
  | string (text : String)
  /-- A number, and whether it has a value that 128 bits hold if it is whole, a double if not. -/
  | number (fits : Bool)
  | boolean (value : Bool)
  | date
  | list (items : List Toml)
  | table (entries : List (String × Toml))
  deriving Inhabited

namespace Toml

def asString? : Toml → Option String
  | string text => some text
  | _ => none

def asBool? : Toml → Option Bool
  | boolean value => some value
  | _ => none

def asStrings? : Toml → Option (List String)
  | list items => items.mapM asString?
  | _ => none

mutual

def isReadable : Toml → Bool
  | string _ => true
  | number fits => fits
  | boolean _ => true
  | date => true
  | list items => allReadable items
  | table entries => entriesReadable entries

def allReadable : List Toml → Bool
  | [] => true
  | item :: rest => item.isReadable && allReadable rest

def entriesReadable : List (String × Toml) → Bool
  | [] => true
  | (_, value) :: rest => value.isReadable && entriesReadable rest

end

/-- The fields of a value that stands for a record with these keys: the entries of a table, in
which only readable values stand under other keys, the items of a list in the order of the
keys, and none of a date. -/
def record? (keys : List String) : Toml → Option (List (String × Toml))
  | table entries =>
    if entries.all fun entry ↦ keys.contains entry.1 || entry.2.isReadable then some entries
    else none
  | list items => some (keys.zip items)
  | date => some []
  | _ => none

/-- The field under a key as read, or the default where the key is missing. -/
def field? {α : Type} (read : Toml → Option α) (fields : List (String × Toml)) (key : String)
    (default : α) : Option α :=
  match Table.get? key fields with
  | some value => read value
  | none => some default

end Toml

end SchemaBindings
