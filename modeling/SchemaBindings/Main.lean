import SchemaBindings.Command.Run

/-!
# The program

Runs the command line on the files of the machine.
-/

namespace SchemaBindings

def machineHost : Host IO where
  isFile path := do
    try
      let _ ← IO.FS.readBinFile path
      pure true
    catch _ => pure false
  isDirectory path := (System.mkFilePath [path]).isDir
  names? path := do
    try
      let entries ← (System.mkFilePath [path]).readDir
      pure (some (entries.toList.map (·.fileName)))
    catch _ => pure none
  read? path := do
    try
      pure (some (← IO.FS.readFile path))
    catch _ => pure none
  makeDirectory path := do
    try
      IO.FS.createDirAll path
      pure true
    catch _ => pure false
  write path text := do
    try
      IO.FS.writeFile path text
      pure true
    catch _ => pure false
  print text := IO.print text

end SchemaBindings

def main (arguments : List String) : IO UInt32 := do
  let ending ← SchemaBindings.Command.run SchemaBindings.machineHost arguments
  match ending.reason with
  | some reason => IO.eprintln ("Error: " ++ reason)
  | none => pure ()
  pure ending.code.toUInt32
