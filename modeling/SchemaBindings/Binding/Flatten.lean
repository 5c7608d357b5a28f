import SchemaBindings.Binding.Session
import SchemaBindings.Schema.Merge

/-!
# Flattening compositions

The members of an `allOf`, with references followed and nested members in their place, merged
into one schema. The schema keeps the title and description of the composition itself. A
reference that leads out of a document is qualified before its own references are read.
-/

namespace SchemaBindings

namespace Flatten

/-- Collects the kinds of members in turn, each placed by its position from `position` on. -/
def members (collect : Document → String → Node → Mapping (List Kind)) (document : Document)
    (path : String) (position : Nat) : List Node → Mapping (List Kind)
  | [] => pure []
  | member :: rest => do
    let first ← collect document (Pointer.child path (toString position)) member
    let others ← members collect document path (position + 1) rest
    pure (first ++ others)

def step (library : Library) (collect : Document → String → Node → Mapping (List Kind))
    (document : Document) (path : String) (node : Node) : Mapping (List Kind) :=
  match node.kind with
  | .reference reference => do
    let target ← Mapping.ofExcept (library.resolve document reference path)
    let node := if target.isExternal then target.node.qualify target.owner.uri else target.node
    Mapping.following target.key path (collect target.owner target.path node)
  | .allOf nested => members collect document (Pointer.child path "allOf") 0 nested
  | .oneOf _ => Mapping.fail (.unsupportedUnion path)
  | .anyOf _ => Mapping.fail (.unsupportedUnion path)
  | kind => pure [kind]

/-- The kinds that one member stands for. -/
def collect (library : Library) : Nat → Document → String → Node → Mapping (List Kind)
  | 0, _, _, _ => Mapping.exhausted
  | budget + 1, document, path, node => step library (collect library budget) document path node

end Flatten

/-- The schema that the members of the composition `outer` merge into. -/
def mergeAllOf (library : Library) (budget : Nat) (document : Document) (outer : Node)
    (members : List Node) (path : String) : Mapping Node := do
  let kinds ← Flatten.members (Flatten.collect library budget) document
    (Pointer.child path "allOf") 0 members
  let kind ← Mapping.ofExcept (mergeKinds path kinds)
  pure (.mk outer.title outer.description kind.withoutRequired)

end SchemaBindings
