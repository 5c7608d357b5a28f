/-!
# Hosts

What a command needs of the place it runs in: files and directories, and somewhere to print.
-/

namespace SchemaBindings

structure Host (m : Type → Type) where
  isFile : String → m Bool
  isDirectory : String → m Bool
  /-- Names of what a directory holds, if it can be read. -/
  names? : String → m (Option (List String))
  read? : String → m (Option String)
  /-- Makes a directory and those it is in, unless something is in the way. -/
  makeDirectory : String → m Bool
  write : String → String → m Bool
  print : String → m Unit

end SchemaBindings
