import SchemaBindings.Command.Host
import SchemaBindings.Table
import SchemaBindings.Text.Pieces

/-!
# Folders in memory

A host whose files are held in memory. A path is taken apart at its slashes and walked step by
step; each step, also one that leads back up, starts from a directory. The folder lies in
directories of which nothing is known but that they are there.
-/

namespace SchemaBindings

/-- Files and directories under the steps that lead to them, joined by slashes. -/
structure Folder where
  files : List (String × String) := []
  directories : List String := []
  printed : String := ""

namespace Folder

/-- The largest size of a name in bytes. -/
def nameLimit : Nat := 255

/-- The largest size of a path in bytes. -/
def pathLimit : Nat := 4095

/-- The place one step away. Above the folder, places are steps up. -/
def enter (place : List String) (step : String) : List String :=
  if step = "" ∨ step = "." then place
  else if step = ".." then
    if place.all (· = "..") then place ++ [".."] else place.dropLast
  else place ++ [step]

def steps (path : String) : List String := Text.split '/' path

def ofSteps (place : List String) : String := String.intercalate "/" place

def isBelow (directory path : String) : Bool := Text.startsWith (directory ++ "/") path

def hasFile (folder : Folder) (place : List String) : Bool :=
  (Table.get? (ofSteps place) folder.files).isSome

def hasDirectory (folder : Folder) (place : List String) : Bool :=
  let path := ofSteps place
  place.all (· = "..") || folder.directories.any (fun d ↦ d = path || isBelow path d) ||
    folder.files.any fun file ↦ isBelow path file.1

/-- Where steps lead from a place, if each starts from a directory. -/
def walk? (folder : Folder) (place : List String) : List String → Option (List String)
  | [] => some place
  | step :: rest =>
    if folder.hasDirectory place && step.utf8ByteSize ≤ nameLimit then
      folder.walk? (enter place step) rest
    else none

/-- Whether a path can be walked at all. The root of the machine is out of reach. -/
def isPath (path : String) : Bool :=
  path ≠ "" && path.utf8ByteSize ≤ pathLimit && !Text.startsWith "/" path &&
    !path.toList.contains '\x00'

/-- The place a path leads to, where there may be nothing. -/
def place? (folder : Folder) (path : String) : Option (List String) :=
  if isPath path then folder.walk? [] (steps path) else none

/-- Names directly below a place. -/
def names (folder : Folder) (place : List String) : List String :=
  let below := (folder.files.map (·.1) ++ folder.directories).filterMap fun path ↦
    let found := steps path
    if place.isPrefixOf found then (found.drop place.length).head? else none
  (below.filter (· ≠ "..")).eraseDups

/-- Makes the directories on a way that are missing, unless a file is in the way. -/
def make? (folder : Folder) (place : List String) : List String → Option Folder
  | [] => some folder
  | step :: rest =>
    let next := enter place step
    if nameLimit < step.utf8ByteSize then none
    else if folder.hasDirectory next then folder.make? next rest
    else if folder.hasFile next then none
    else make? { folder with directories := folder.directories ++ [ofSteps next] } next rest

/-- Adds a file, or a directory if the path ends in a slash. -/
def add (folder : Folder) (path text : String) : Folder :=
  let place := ofSteps ((steps path).foldl enter [])
  if path.toList.getLast? = some '/' then
    { folder with directories := folder.directories ++ [place] }
  else { folder with files := Table.put place text folder.files }

/-- The files of the folder itself that are new or have another text than before, by path. -/
def changes (before after : Folder) : List (String × String) :=
  (after.files.filter fun (path, text) ↦
    !isBelow ".." path && Table.get? path before.files != some text).mergeSort fun a b ↦ a.1 ≤ b.1

/-- A file of the machine that is always there and always empty. -/
def nullDevice : String := "/dev/null"

def host : Host (StateM Folder) where
  isFile path := do
    let folder ← get
    pure ((folder.place? path).any folder.hasFile)
  isDirectory path := do
    let folder ← get
    pure ((folder.place? path).any folder.hasDirectory)
  names? path := do
    let folder ← get
    pure ((folder.place? path).map folder.names)
  read? path := do
    let folder ← get
    pure (if path = nullDevice then some ""
      else (folder.place? path).bind fun place ↦ Table.get? (ofSteps place) folder.files)
  makeDirectory path := do
    let folder ← get
    match if isPath path then folder.make? [] (steps path) else none with
    | some made =>
      set made
      pure true
    | none => pure false
  write path text := do
    let folder ← get
    match folder.place? path with
    | some place =>
      if folder.hasDirectory place then pure false
      else
        set { folder with files := Table.put (ofSteps place) text folder.files }
        pure true
    | none => pure false
  print text := modify fun folder ↦ { folder with printed := folder.printed ++ text }

end Folder

end SchemaBindings
