/-
# JSON documents

A document is what a value of the library is written as: the shape of a JSON value with
doubles kept as doubles. Its text has no blanks; a double that is not finite is a null.

Key definitions: `Json.Document`, `Json.Document.write`.
-/
import LSystem.Json.Text

namespace LSystem.Json

/-- The shape of a JSON value. -/
inductive Document where
  | null
  | natural (value : Nat)
  | real (value : Float)
  | text (value : String)
  | sequence (items : List Document)
  | map (entries : List (String × Document))

namespace Document

/-- A value or a null. -/
def ofOption {α : Type} (f : α → Document) : Option α → Document
  | some a => f a
  | none => null

/-- A double; one that is not finite has no text of its own. -/
def writeReal (x : Float) : List Char :=
  if Binary64.magnitude x < Binary64.infinity then numberLayout.write x else "null".toList

mutual

/-- The text of a document. -/
def write : Document → List Char
  | null => "null".toList
  | natural n => Decimal.digits n
  | real x => writeReal x
  | text s => writeText s
  | sequence items => '[' :: writeItems items ++ [']']
  | map entries => '{' :: writeEntries entries ++ ['}']

/-- Items with commas between them. -/
def writeItems : List Document → List Char
  | [] => []
  | [d] => d.write
  | d :: e :: rest => d.write ++ ',' :: writeItems (e :: rest)

/-- Entries with commas between them. -/
def writeEntries : List (String × Document) → List Char
  | [] => []
  | [(key, d)] => writeText key ++ ':' :: d.write
  | (key, d) :: e :: rest => writeText key ++ ':' :: (d.write ++ ',' :: writeEntries (e :: rest))

end

/-- The text of a document as a string. -/
def toText (d : Document) : String := .ofList d.write

end Document
end LSystem.Json
