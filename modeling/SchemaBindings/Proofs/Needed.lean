import Mathlib.Order.Bounds.Defs
import SchemaBindings.Proofs.Definitions
import SchemaBindings.Proofs.Kept
import SchemaBindings.Proofs.Origins

/-!
# Needed definitions

A definition is needed if another document refers to it by the URI of this one, or if a needed
definition refers to it, with the URI or without. The kept definitions are the least set that has
all of these: the search for them starts with what other documents name, adds only what a kept
definition names, and ends where nothing is left to add. Definitions that only refer to each other
are therefore not kept.
-/

namespace SchemaBindings

namespace Keep

variable {library : Library} {document : Document} {isHome : Bool} {reference name : String}

section Read

variable {content : Json} (hread : Document.read content = .ok document)
  (hhash : '#' ∉ document.uri.toList)
include hread hhash

end Read

/-- The set has the definitions of the document that other documents refer to, and those that a
definition in the set refers to. -/
structure Closes (library : Library) (document : Document) (needed : Set String) : Prop where
  foreign : ∀ user ∈ library.documents, user.uri ≠ document.uri → ∀ node ∈ schemas user,
    ∀ name ∈ Table.keys document.definitions,
      document.uri ++ document.definitionRef name ∈ node.references → name ∈ needed
  own : ∀ source ∈ needed, ∀ node, Table.get? source document.definitions = some node →
    ∀ name ∈ Table.keys document.definitions,
      document.definitionRef name ∈ node.references ∨
        document.uri ++ document.definitionRef name ∈ node.references → name ∈ needed

/-- No other document refers to these definitions, and no definition but themselves does. -/
structure Unreached (library : Library) (document : Document) (names : Set String) : Prop where
  foreign : ∀ user ∈ library.documents, user.uri ≠ document.uri → ∀ node ∈ schemas user,
    ∀ name ∈ names, document.uri ++ document.definitionRef name ∉ node.references
  own : ∀ source node, Table.get? source document.definitions = some node → ∀ name ∈ names,
    document.definitionRef name ∈ node.references ∨
      document.uri ++ document.definitionRef name ∈ node.references → source ∈ names

theorem Unreached.closes {names : Set String} (h : Unreached library document names) :
    Closes library document {name | name ∉ names} where
  foreign user huser hother node hnode name _ hreference hname :=
    h.foreign user huser hother node hnode name hname hreference
  own source hsource node hnode name _ hreference hname :=
    hsource (h.own source node hnode name hname hreference)

end Keep

open Keep

namespace Dimmer

def referring (target : String) : Json := .object [("$ref", .string target)]

/-- `Mode` and `Level` refer to each other, and so do `Spare` and `Rest`. -/
def content : Json := .object [("title", .string "Types"), ("definitions", .object [
  ("Mode", .object [("properties", .object [("level", referring "#/definitions/Level")])]),
  ("Level", .object [("items", referring "Types#/definitions/Mode"), ("type", .string "array")]),
  ("Spare", .object [("properties", .object [("mode", referring "#/definitions/Mode"),
    ("rest", referring "#/definitions/Rest")])]),
  ("Rest", referring "#/definitions/Spare")])]

def userContent : Json := .object [("$id", .string "Dimmer"), ("title", .string "Dimmer"),
  ("methods", .array [.object [("name", .string "mode"),
    ("result", .object [("schema", referring "Types#/definitions/Mode")])]])]

theorem isSome_read : (Document.read content).toOption.isSome := by cbv

theorem isSome_read_user : (Document.read userContent).toOption.isSome := by cbv

def types : Document := (Document.read content).toOption.get isSome_read

def user : Document := (Document.read userContent).toOption.get isSome_read_user

def library : Library := ⟨[user, types]⟩

end Dimmer

end SchemaBindings
