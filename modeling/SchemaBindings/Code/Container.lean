import SchemaBindings.Code.Lines
import SchemaBindings.Text.Casing

/-!
# Container classes

The class that carries an object on the wire: one member for each property, registered under the
name of the property when the class is constructed or copied.
-/

namespace SchemaBindings.Code

/-- A property on the wire: its name and its wire type. -/
structure Member where
  property : String
  type : String
  deriving DecidableEq, Repr

def Member.identifier (m : Member) : String := Text.capitalize m.property

structure Container where
  name : String
  base : String
  members : List Member
  deriving DecidableEq, Repr

namespace Container

def registrations (c : Container) : Lines :=
  c.members.flatMap fun m ↦ line s!"Add(_T(\"{m.property}\"), &{m.identifier});"

def copies (c : Container) (source : String) : Lines :=
  c.members.flatMap fun m ↦ line s!"{m.identifier} = {source}.{m.identifier};"

def constructor (c : Container) (signature : String) (body : Lines) : Lines :=
  indent (line signature ++ indent (line s!": {c.base}()") ++ braced body)

def body (c : Container) : Lines :=
  line (s!"class {c.name} : public {c.base} " ++ "\x7b") ++
  line "public:" ++
  indent (line s!"~{c.name}() override = default;") ++
  blank ++
  line "public:" ++
  c.constructor s!"{c.name}()" c.registrations ++
  blank ++
  c.constructor s!"{c.name}(const {c.name}& copy)" (c.registrations ++ c.copies "copy") ++
  blank ++
  indent (line s!"{c.name}& operator=(const {c.name}& rhs)" ++
    braced (c.copies "rhs" ++ line "return (*this);")) ++
  blank ++
  line "public:" ++
  indent (c.members.flatMap fun m ↦ line s!"{m.type} {m.identifier};") ++
  line "\x7d;"

def render (c : Container) : String := Code.render (indent c.body)

end Container

end SchemaBindings.Code
