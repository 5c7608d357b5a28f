import SchemaBindings.Schema.Document

/-!
# Libraries of documents

The documents of a run, each under its own URI and in the order in which the URIs came in.
-/

namespace SchemaBindings

structure Library where
  documents : List Document := []

namespace Library

def get? (library : Library) (uri : String) : Option Document :=
  library.documents.find? (·.uri = uri)

def findByTitle? (library : Library) (title : String) : Option Document :=
  library.documents.find? (·.title = title)

def insertInto (document : Document) : List Document → List Document
  | [] => [document]
  | other :: rest =>
    if other.uri = document.uri then document :: rest else other :: insertInto document rest

/-- Adds a document; one with the same URI is replaced in its place. -/
def insert (library : Library) (document : Document) : Library :=
  ⟨insertInto document library.documents⟩

def ofList (documents : List Document) : Library := documents.foldl insert {}

def size (library : Library) : Nat := library.documents.length

theorem get?_insert_self (library : Library) (document : Document) :
    (library.insert document).get? document.uri = some document := by
  obtain ⟨documents⟩ := library
  induction documents with
  | nil => simp [insert, insertInto, get?]
  | cons other rest ih =>
    by_cases h : other.uri = document.uri
    · simp [insert, insertInto, get?, h]
    · simp only [insert, get?] at ih
      simp [insert, insertInto, get?, h, ih]

end Library

end SchemaBindings
