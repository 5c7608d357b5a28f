import SchemaBindings.Toml.Scalar

/-!
# Reading configuration text

Lines that bind keys, and headers that open tables and lists of tables. A table may be opened
once, a key bound once, and what was written between braces is complete.
-/

namespace SchemaBindings.Toml

/-- How a table came to be, which decides what may still be added to it. -/
inductive Origin where
  | implied
  | header
  | dotted
  deriving DecidableEq

/-- A binding under construction: a finished value, a table, or a list of tables. -/
inductive Binding where
  | value (value : Toml)
  | table (origin : Origin) (entries : List (String × Binding))
  | tables (done : List (List (String × Binding))) (last : List (String × Binding))
  deriving Inhabited

abbrev Bindings := List (String × Binding)

/-- Drops blanks, line breaks and comments. A comment goes no further than to a control character,
with which nothing else begins. -/
def dropLines (inComment : Bool) : List Char → List Char
  | [] => []
  | c :: rest =>
    if c = '\n' then dropLines false rest
    else if inComment then
      if isControl c && c ≠ '\r' then c :: rest else dropLines true rest
    else if isFiller c then dropLines false rest
    else if c = '#' then dropLines true rest
    else c :: rest

def isBareKey (c : Char) : Bool := c.isAlphanum || c = '_' || c = '-'

def simpleKey? (text : List Char) : Option (String × List Char) :=
  match lineText? text with
  | some found => some found
  | none =>
    let key := text.takeWhile isBareKey
    if key.isEmpty then none else some (String.ofList key, text.dropWhile isBareKey)

/-- As many parts as a key may have, and lists and tables as may lie in each other. -/
def depthLimit : Nat := 80

/-- Keys joined by points, at most so many. -/
def keys? : Nat → List Char → Option (List String × List Char)
  | 0, _ => none
  | limit + 1, text => do
    let (first, rest) ← simpleKey? (dropFiller text)
    match dropFiller rest with
    | '.' :: rest => do
      let (others, rest) ← keys? limit rest
      some (first :: others, rest)
    | rest => some ([first], rest)

def key? (text : List Char) : Option (List String × List Char) := keys? depthLimit text

/-- Binds a dotted key. It makes the tables on its way, or passes those that no header opened
and the last of a list of tables; where it ends, only a table `takes` it that is at hand or
made by dotted keys. -/
def bindKey? (value : Toml) (takes : Bool) : List String → Bindings → Option Bindings
  | [], _ => none
  | [key], bindings =>
    if takes && (Table.get? key bindings).isNone then some (Table.put key (.value value) bindings)
    else none
  | key :: rest, bindings =>
    match Table.get? key bindings with
    | none => (bindKey? value true rest []).map fun inner ↦
        Table.put key (.table .dotted inner) bindings
    | some (.table .dotted inner) => (bindKey? value true rest inner).map fun inner ↦
        Table.put key (.table .dotted inner) bindings
    | some (.table .implied inner) => (bindKey? value false rest inner).map fun inner ↦
        Table.put key (.table .implied inner) bindings
    | some (.tables done last) => (bindKey? value false rest last).map fun last ↦
        Table.put key (.tables done last) bindings
    | some _ => none

mutual

def Binding.finish : Binding → Toml
  | .value value => value
  | .table _ entries => .table (finishAll entries)
  | .tables done last => .list (finishTables done ++ [.table (finishAll last)])

def finishAll : List (String × Binding) → List (String × Toml)
  | [] => []
  | (key, binding) :: rest => (key, binding.finish) :: finishAll rest

def finishTables : List (List (String × Binding)) → List Toml
  | [] => []
  | entries :: rest => .table (finishAll entries) :: finishTables rest

end

mutual

/-- A value, in which lists and tables lie in each other at most `depth` deep. -/
def value? : Nat → Nat → List Char → Option (Toml × List Char)
  | 0, _, _ => none
  | fuel + 1, depth, text =>
    match text, depth with
    | '[' :: rest, depth + 1 => items? fuel depth [] (dropLines false rest)
    | '\x7b' :: rest, depth + 1 => fields? fuel depth [] (dropLines false rest)
    | '"' :: _, _ => (text? text).map fun (s, rest) ↦ (.string s, rest)
    | '\'' :: _, _ => (text? text).map fun (s, rest) ↦ (.string s, rest)
    | _, _ =>
      let (found, rest) := word text
      (ofWord? found).map (·, rest)

/-- The items of a list up to its end; those done stand in reverse. -/
def items? : Nat → Nat → List Toml → List Char → Option (Toml × List Char)
  | 0, _, _, _ => none
  | fuel + 1, depth, done, text =>
    match text with
    | ']' :: rest => some (.list done.reverse, rest)
    | _ => do
      let (item, rest) ← value? fuel depth text
      match dropLines false rest with
      | ',' :: rest => items? fuel depth (item :: done) (dropLines false rest)
      | ']' :: rest => some (.list (item :: done).reverse, rest)
      | _ => none

/-- The fields of a table up to its end. -/
def fields? : Nat → Nat → Bindings → List Char → Option (Toml × List Char)
  | 0, _, _, _ => none
  | fuel + 1, depth, done, text =>
    match text with
    | '\x7d' :: rest => some (.table (finishAll done), rest)
    | _ => do
      let (key, rest) ← key? text
      match dropLines false rest with
      | '=' :: rest => do
        let (value, rest) ← value? fuel depth (dropLines false rest)
        let done ← bindKey? value true key done
        match dropLines false rest with
        | ',' :: rest => fields? fuel depth done (dropLines false rest)
        | '\x7d' :: rest => some (.table (finishAll done), rest)
        | _ => none
      | _ => none

end

/-- Changes the table at a path of keys, of a list of tables the last. -/
def atTable? (change : Bindings → Option Bindings) : List String → Bindings → Option Bindings
  | [], bindings => change bindings
  | key :: rest, bindings =>
    match Table.get? key bindings with
    | none => (atTable? change rest []).map fun inner ↦
        Table.put key (.table .implied inner) bindings
    | some (.table origin inner) => (atTable? change rest inner).map fun inner ↦
        Table.put key (.table origin inner) bindings
    | some (.tables done last) => (atTable? change rest last).map fun last ↦
        Table.put key (.tables done last) bindings
    | some (.value _) => none

def openTable? (key : String) (bindings : Bindings) : Option Bindings :=
  match Table.get? key bindings with
  | none => some (Table.put key (.table .header []) bindings)
  | some (.table .implied inner) => some (Table.put key (.table .header inner) bindings)
  | some _ => none

def addTable? (key : String) (bindings : Bindings) : Option Bindings :=
  match Table.get? key bindings with
  | none => some (Table.put key (.tables [] []) bindings)
  | some (.tables done last) => some (Table.put key (.tables (done ++ [last]) []) bindings)
  | some _ => none

/-- What a line says: which table it opens, or what it binds in the open one. -/
inductive Statement where
  | table (path : List String)
  | listTable (path : List String)
  | bind (key : List String) (value : Toml)

/-- A text has ended, or goes on in the next line. -/
def lineEnd? (text : List Char) : Option (List Char) :=
  let text := dropFiller text
  let text := if text.head? = some '#' then dropFiller (text.dropWhile (!isControl ·)) else text
  match text with
  | [] => some []
  | '\n' :: rest => some rest
  | _ => none

def statement? (fuel : Nat) (text : List Char) : Option (Statement × List Char) :=
  match text with
  | '[' :: '[' :: rest => do
    let (path, rest) ← key? rest
    match rest with
    | ']' :: ']' :: rest => (lineEnd? rest).map (.listTable path, ·)
    | _ => none
  | '[' :: rest => do
    let (path, rest) ← key? rest
    match rest with
    | ']' :: rest => (lineEnd? rest).map (.table path, ·)
    | _ => none
  | _ => do
    let (key, rest) ← key? text
    match rest with
    | '=' :: rest => do
      let (value, rest) ← value? fuel depthLimit (dropFiller rest)
      (lineEnd? rest).map (.bind key value, ·)
    | _ => none

/-- The bindings so far, and the path of the open table. -/
structure Progress where
  bindings : Bindings
  path : List String

def Progress.add? (progress : Progress) : Statement → Option Progress
  | .table path =>
    (path.getLast?.bind fun key ↦
      atTable? (openTable? key) path.dropLast progress.bindings).map (⟨·, path⟩)
  | .listTable path =>
    (path.getLast?.bind fun key ↦
      atTable? (addTable? key) path.dropLast progress.bindings).map (⟨·, path⟩)
  | .bind key value =>
    (atTable? (bindKey? value true key) progress.path progress.bindings).map (⟨·, progress.path⟩)

def statements? : Nat → Progress → List Char → Option Progress
  | 0, _, _ => none
  | fuel + 1, progress, text =>
    match dropLines false text with
    | [] => some progress
    | text => do
      let (statement, rest) ← statement? fuel text
      let progress ← progress.add? statement
      statements? fuel progress rest

/-- Whether every carriage return stands before a line break. -/
def hasWholeBreaks : List Char → Bool
  | [] => true
  | '\r' :: rest => rest.head? = some '\n' && hasWholeBreaks rest
  | _ :: rest => hasWholeBreaks rest

/-- The text without the byte order mark that it may begin with. -/
def withoutMark : List Char → List Char
  | '\ufeff' :: rest => rest
  | text => text

/-- The table that a configuration text describes. -/
def read? (text : String) : Option Toml := do
  let text := withoutMark text.toList
  if hasWholeBreaks text then
    let progress ← statements? (2 * text.length + 2) ⟨[], []⟩ text
    some (.table (finishAll progress.bindings))
  else none

end SchemaBindings.Toml
