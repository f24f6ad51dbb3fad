import Stencil.Number.Decimal

/-!
# JSON trees and their text

The compact text of a JSON tree has no blanks. Quotes, backslashes and control characters are escaped, the common ones
by a letter and the others by their code.
-/

namespace Stencil

inductive Json where
  | null
  | bool (b : Bool)
  | integer (n : Int)
  | float (x : Binary64)
  | string (s : String)
  | array (items : List Json)
  | object (fields : List (String × Json))

namespace Json

def hexDigit (n : Nat) : Char := Nat.digitChar n

/-- The characters that stand for a character of a string. -/
def escape (c : Char) : List Char :=
  if c = '"' then ['\\', '"']
  else if c = '\\' then ['\\', '\\']
  else if c.toNat = 8 then ['\\', 'b']
  else if c.toNat = 12 then ['\\', 'f']
  else if c = '\n' then ['\\', 'n']
  else if c = '\r' then ['\\', 'r']
  else if c = '\t' then ['\\', 't']
  else if c.toNat < 32 then ['\\', 'u', '0', '0', hexDigit (c.toNat / 16), hexDigit (c.toNat % 16)]
  else [c]

/-- A string between quotes. -/
def quote (s : String) : List Char := '"' :: (s.toList.flatMap escape ++ ['"'])

def floatText (x : Binary64) : List Char := (x.jsonText.getD "null").toList

mutual

def textOf : Json → List Char
  | .null => ['n', 'u', 'l', 'l']
  | .bool true => ['t', 'r', 'u', 'e']
  | .bool false => ['f', 'a', 'l', 's', 'e']
  | .integer n => (Decimal.integerText n).toList
  | .float x => floatText x
  | .string s => quote s
  | .array [] => ['[', ']']
  | .array (item :: items) => '[' :: (textOf item ++ itemsText items)
  | .object [] => ['{', '}']
  | .object ((key, value) :: fields) => '{' :: (quote key ++ ':' :: (textOf value ++ fieldsText fields))

/-- The items of an array after the first one, and the bracket that closes it. -/
def itemsText : List Json → List Char
  | [] => [']']
  | item :: items => ',' :: (textOf item ++ itemsText items)

/-- The fields of an object after the first one, and the brace that closes it. -/
def fieldsText : List (String × Json) → List Char
  | [] => ['}']
  | (key, value) :: fields => ',' :: (quote key ++ ':' :: (textOf value ++ fieldsText fields))

end

/-- The compact text of a tree. -/
def text (j : Json) : String := String.ofList (textOf j)

/-- Puts a field in front of the first one with a greater name; a field of this very name gets the value. -/
def insertSorted {α : Type} (key : String) (value : α) : List (String × α) → List (String × α)
  | [] => [(key, value)]
  | (k, v) :: rest =>
    if key < k then (key, value) :: (k, v) :: rest
    else if key = k then (k, value) :: rest
    else (k, v) :: insertSorted key value rest

/-- The fields in the order of their names. -/
def sortFields {α : Type} (fields : List (String × α)) : List (String × α) :=
  fields.foldl (fun sorted f => insertSorted f.1 f.2 sorted) []

mutual

/-- The tree with the fields of all objects in the order of their names. -/
def sorted : Json → Json
  | .array items => .array (sortedItems items)
  | .object fields => .object (sortFields (sortedFields fields))
  | .null => .null
  | .bool b => .bool b
  | .integer n => .integer n
  | .float x => .float x
  | .string s => .string s

def sortedItems : List Json → List Json
  | [] => []
  | item :: items => item.sorted :: sortedItems items

def sortedFields : List (String × Json) → List (String × Json)
  | [] => []
  | (key, value) :: fields => (key, value.sorted) :: sortedFields fields

end

end Json

end Stencil
