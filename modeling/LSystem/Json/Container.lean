/-
# Sequences and maps in JSON

A container is read item by item: before each item stands the comma after the one before,
and the closing bracket ends it. A comma that no item follows is malformed.

Key definitions: `Json.atItem`, `Json.atKey`, `Json.sequence`, `Json.map`.
-/
import LSystem.Json.Value

namespace LSystem.Json

/-- Goes to the next item of a sequence, if there is one, and stays before the bracket
otherwise. -/
def atItem (first : Bool) : Reader Bool := do
  match ← peek with
  | ']' => return false
  | ',' =>
    if first then return true
    else
      discard next
      if (← peek) = ']' then malformed else return true
  | _ => if first then return true else malformed

/-- Goes to the quote of the next key of a map, if there is one, and stays before the bracket
otherwise. -/
def atKey (first : Bool) : Reader Bool := do
  match ← peek with
  | '}' => return false
  | c =>
    if first then
      if c = '"' then return true else malformed
    else if c = ',' then
      discard next
      if (← peek) = '"' then return true else malformed
    else malformed

/-- Reads the items up to the closing bracket, behind those read already. -/
def itemsFrom {α : Type} (item : Reader α) (first : Bool) (items : Array α) :
    Nat → Reader (Array α)
  | 0 => truncated
  | fuel + 1 => do
    if ← atItem first then itemsFrom item false (items.push (← item)) fuel
    else return items

/-- Reads a sequence of items of one kind. -/
def sequence {α : Type} (item : Reader α) : Reader (Array α) := do
  if (← peek) = '[' then
    discard next
    let items ← repeated (itemsFrom item true #[])
    punctuation ']'
    return items
  else unexpected "a sequence"

/-- Reads the entries up to the closing bracket, and puts each of them into a table. The key
is settled before its value is read. -/
def entriesFrom {κ α τ : Type} (key : Reader κ) (value : Reader α) (put : τ → κ → α → τ)
    (first : Bool) (table : τ) : Nat → Reader τ
  | 0 => truncated
  | fuel + 1 => do
    if ← atKey first then
      let k ← key
      punctuation ':'
      let v ← value
      entriesFrom key value put false (put table k v) fuel
    else return table

/-- Reads a map into a table, entry by entry. -/
def map {κ α τ : Type} (key : Reader κ) (value : Reader α) (put : τ → κ → α → τ) (empty : τ) :
    Reader τ := do
  if (← peek) = '{' then
    discard next
    let table ← repeated (entriesFrom key value put true empty)
    punctuation '}'
    return table
  else unexpected "a map"

end LSystem.Json
