import SchemaBindings.Names
import SchemaBindings.Schema.Element
import SchemaBindings.Schema.Resolve

/-!
# Symbol registry

Every generated type belongs to one schema, known by its path. A schema claims a stem, and with it
the symbols that its kind of type needs. When another schema owns one of them, the stem gets the
first free number from two on. The definitions of a document claim their stems before anything
else in it, arrays last, since they are named after their elements.
-/

namespace SchemaBindings

inductive SymbolKind where
  | enumeration
  | object
  | map
  | array
  deriving DecidableEq, Repr

/-- The symbols that a stem occupies in the document with this title. -/
def SymbolKind.symbols (kind : SymbolKind) (title stem : String) : List String :=
  let base := Names.qualified title stem
  match kind with
  | enumeration => [base]
  | object => [base ++ "Handle", base]
  | map => [base ++ "Handle", base]
  | array => [base ++ "ArrayHandle", base ++ "Array"]

/-- Owners of symbols and stems of paths, latest first, the URIs whose definitions are in, and the
paths that were renamed to avoid a clash of symbols. -/
structure Registry where
  owners : List (String × String) := []
  stems : List (String × String) := []
  reserved : List String := []
  renamed : List String := []

namespace Registry

/-- The `n`-th choice of a stem: itself, then itself with the number. -/
def candidate (stem : String) (n : Nat) : String :=
  if n ≤ 1 then stem else stem ++ "_" ++ toString n

def ownedByOther (registry : Registry) (path symbol : String) : Bool :=
  match Table.get? symbol registry.owners with
  | some owner => owner ≠ path
  | none => false

def isBlocked (registry : Registry) (title path : String) (kind : SymbolKind) (stem : String) :
    Bool :=
  (kind.symbols title stem).any (registry.ownedByOther path)

/-- The first choice from the `n`-th on that is not blocked, after at most `bound` blocked ones. -/
def firstFree (blocked : String → Bool) (stem : String) : Nat → Nat → String
  | 0, n => candidate stem n
  | bound + 1, n =>
    if blocked (candidate stem n) then firstFree blocked stem bound (n + 1) else candidate stem n

/-- An owned symbol blocks one choice at most, so there are no more blocked ones than owners. -/
def freeStem (registry : Registry) (title path : String) (kind : SymbolKind) (stem : String) :
    String :=
  firstFree (registry.isBlocked title path kind) stem registry.owners.length 1

def assign (registry : Registry) (title path : String) (kind : SymbolKind) (stem : String) :
    String × Registry :=
  match Table.get? path registry.stems with
  | some claimed => (claimed, registry)
  | none =>
    let free := registry.freeStem title path kind stem
    (free, { registry with
      owners := (kind.symbols title free).map (·, path) ++ registry.owners
      stems := (path, free) :: registry.stems
      renamed := if free = stem then registry.renamed else path :: registry.renamed })

/-- Hops of references followed to name an array after its element. -/
def hopLimit : Nat := 32

/-- The title at the end of a chain of references, or none for a chain that is too long. -/
def finalTitle? (library : Library) (place : String) :
    Nat → Document → Node → Option String → Option String
  | 0, _, _, _ => none
  | hops + 1, owner, node, title =>
    match node.kind with
    | .reference target =>
      match library.resolve owner target place with
      | .ok found => finalTitle? library place hops found.owner found.node (some found.title)
      | .error _ => none
    | _ => title

/-- What a definition claims: the kind of its type and the preferred stem. -/
structure Claim where
  path : String
  kind : SymbolKind
  stem : String

def literalKind? (node : Node) : Option SymbolKind :=
  match node.kind with
  | .enumeration _ => some .enumeration
  | .allOf _ => some .object
  | .object object =>
    if object.hasProperties then some .object
    else if object.additional.isSome then some .map
    else none
  | _ => none

def arrayLabel? (library : Library) (document : Document) (label path : String) (items : Items) :
    Option String :=
  match items.element path with
  | .error _ => none
  | .ok item =>
    if item.isReference then finalTitle? library document.title hopLimit document item none
    else some label

def definitionClaim? (library : Library) (document : Document) (name : String) (node : Node) :
    Option Claim :=
  let path := document.schemaPath (document.definitionRef name)
  let label := node.givenTitle?.getD name
  match node.kind with
  | .array items =>
    (arrayLabel? library document label path items).map fun element ↦
      ⟨path, .array, Names.nested "" element⟩
  | _ => (literalKind? node).map fun kind ↦ ⟨path, kind, Names.nested "" label⟩

/-- The claims of a document's definitions in declaration order, those of arrays at the end. -/
def definitionClaims (library : Library) (document : Document) : List Claim :=
  let claims := document.definitions.filterMap fun (name, node) ↦
    definitionClaim? library document name node
  claims.filter (·.kind ≠ .array) ++ claims.filter (·.kind = .array)

def assignAll (title : String) (claims : List Claim) (registry : Registry) : Registry :=
  claims.foldl (fun registry claim ↦ (registry.assign title claim.path claim.kind claim.stem).2)
    registry

def reserveDefinitions (registry : Registry) (library : Library) (document : Document) : Registry :=
  if registry.reserved.contains document.uri then registry
  else assignAll document.title (definitionClaims library document)
    { registry with reserved := document.uri :: registry.reserved }

/-- The stem of the schema at `path`: the first claim for a path decides. -/
def claim (registry : Registry) (library : Library) (document : Document) (path : String)
    (kind : SymbolKind) (stem : String) : String × Registry :=
  (registry.reserveDefinitions library document).assign document.title path kind stem

end Registry

end SchemaBindings
