/-!
# Lines of code

Code as lines with a depth, four blanks wide each, and blank lines. Blocks put their lines one
level deeper between braces.
-/

namespace SchemaBindings.Code

structure Line where
  depth : Nat
  text : String
  deriving DecidableEq, Repr

def Line.render (line : Line) : String :=
  if line.text = "" then "\n"
  else String.ofList (List.replicate (4 * line.depth) ' ') ++ line.text ++ "\n"

abbrev Lines := List Line

def line (text : String) : Lines := [⟨0, text⟩]

def lines (texts : List String) : Lines := texts.map (⟨0, ·⟩)

def blank : Lines := [⟨0, ""⟩]

def indent (body : Lines) : Lines := body.map fun l ↦ { l with depth := l.depth + 1 }

/-- Lines between braces, the first at the end of the head. -/
def block (head : String) (body : Lines) : Lines :=
  line (head ++ " \x7b") ++ indent body ++ line "\x7d"

/-- Lines between braces that stand on lines of their own. -/
def braced (body : Lines) : Lines :=
  line "\x7b" ++ indent body ++ line "\x7d"

/-- Blocks of which the first with a true condition runs. -/
def branches : List (String × Lines) → Lines
  | [] => []
  | [(condition, body)] => block s!"if ({condition})" body
  | (condition, body) :: rest =>
    line (s!"if ({condition}) " ++ "\x7b") ++ indent body ++
      match branches rest with
      | [] => []
      | first :: others => { first with text := "\x7d else " ++ first.text } :: others

def ifElse (condition : String) (yes no : Lines) : Lines :=
  line (s!"if ({condition}) " ++ "\x7b") ++ indent yes ++ line "\x7d else \x7b" ++ indent no ++
    line "\x7d"

def render (body : Lines) : String := String.join (body.map Line.render)

end SchemaBindings.Code
