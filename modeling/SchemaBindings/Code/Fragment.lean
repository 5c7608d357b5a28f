import SchemaBindings.Code.Accessors
import SchemaBindings.Code.Container
import SchemaBindings.Code.Enumeration
import SchemaBindings.Code.Trampoline

/-!
# Code fragments

A fragment is what the generated code says under one symbol: a few pieces of known meaning,
together with their text. Two fragments are the same code when their texts agree.
-/

namespace SchemaBindings.Code

inductive Piece where
  /-- Code of which nothing but the text is known. -/
  | verbatim (text : String)
  | comment (text : String)
  | enumeration (e : Enumeration)
  | conversion (e : Enumeration)
  | declared (groups : List AccessorGroup)
  | defined (groups : List AccessorGroup)
  | container (c : Container)
  | prototype (s : Signature)
  | callback (c : Callback)
  | routine (r : Routine)
  /-- A routine that is seen only inside its file. -/
  | hidden (r : Routine)
  | trampoline (t : Trampoline)
  /-- A static function without results that does nothing but call another one. -/
  | dispatcher (name callee : String)
  deriving DecidableEq, Repr

namespace Piece

def render : Piece → String
  | verbatim text => text
  | comment text => text ++ "\n"
  | enumeration e => e.declaration
  | conversion e => e.conversion
  | declared groups => String.join (groups.map AccessorGroup.declaration)
  | defined groups => String.join (groups.map AccessorGroup.definition)
  | container c => c.render
  | prototype s => s.prototype
  | callback c => c.render
  | routine r => r.render
  | hidden r => "static " ++ r.render
  | trampoline t => t.render
  | dispatcher name callee =>
    "static void " ++ name ++ "(const void*)\n" ++ Code.render (braced (line (callee ++ "();")))

end Piece

def renderPieces (pieces : List Piece) : String := String.join (pieces.map Piece.render)

structure Fragment where
  pieces : List Piece
  text : String
  text_eq : text = renderPieces pieces

namespace Fragment

def ofPieces (pieces : List Piece) : Fragment := ⟨pieces, renderPieces pieces, rfl⟩

def verbatim (text : String) : Fragment := ofPieces [.verbatim text]

end Fragment

end SchemaBindings.Code
