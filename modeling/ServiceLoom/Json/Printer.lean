import ServiceLoom.Double.Text
import ServiceLoom.Json.Basic

/-!
# JSON text

`compact` has no blanks. `pretty` puts every item on a line of its own, indented by two spaces a
level, and writes an empty container as its two brackets. Only quotes, backslashes and characters
below U+0020 are escaped.
-/

namespace ServiceLoom.Json

def hexDigit (n : Nat) : Char := if n < 10 then Char.ofNat (48 + n) else Char.ofNat (87 + n)

def escapeChar (c : Char) : List Char :=
  if c = '"' then ['\\', '"']
  else if c = '\\' then ['\\', '\\']
  else if c = '\x08' then ['\\', 'b']
  else if c = '\t' then ['\\', 't']
  else if c = '\n' then ['\\', 'n']
  else if c = '\x0c' then ['\\', 'f']
  else if c = '\r' then ['\\', 'r']
  else if c.toNat < 0x20 then
    ['\\', 'u', '0', '0', hexDigit (c.toNat / 16), hexDigit (c.toNat % 16)]
  else [c]

def quote (s : String) : String :=
  String.ofList ('"' :: s.toList.flatMap escapeChar ++ ['"'])

mutual

def compact : Json → String
  | null => "null"
  | bool b => if b then "true" else "false"
  | int n => toString n
  | double x => x.text
  | string s => quote s
  | array items => "[" ++ String.intercalate "," (compactItems items) ++ "]"
  | object members => "\x7b" ++ String.intercalate "," (compactMembers members) ++ "\x7d"

def compactItems : List Json → List String
  | [] => []
  | item :: items => item.compact :: compactItems items

def compactMembers : List (String × Json) → List String
  | [] => []
  | (key, value) :: members => (quote key ++ ":" ++ value.compact) :: compactMembers members

end

def indentation (level : Nat) : String := String.ofList (List.replicate (2 * level) ' ')

/-- A container over several lines, closed at its own level. -/
def block (level : Nat) (opening closing : String) (lines : List String) : String :=
  opening ++ "\n" ++
    String.intercalate ",\n" (lines.map (indentation (level + 1) ++ ·)) ++
    "\n" ++ indentation level ++ closing

mutual

def prettyAt (level : Nat) : Json → String
  | null => "null"
  | bool b => if b then "true" else "false"
  | int n => toString n
  | double x => x.text
  | string s => quote s
  | array [] => "[]"
  | array (item :: items) =>
    block level "[" "]" (item.prettyAt (level + 1) :: prettyItems (level + 1) items)
  | object [] => "\x7b\x7d"
  | object ((key, value) :: members) =>
    block level "\x7b" "\x7d"
      ((quote key ++ ": " ++ value.prettyAt (level + 1)) :: prettyMembers (level + 1) members)

def prettyItems (level : Nat) : List Json → List String
  | [] => []
  | item :: items => item.prettyAt level :: prettyItems level items

def prettyMembers (level : Nat) : List (String × Json) → List String
  | [] => []
  | (key, value) :: members =>
    (quote key ++ ": " ++ value.prettyAt level) :: prettyMembers level members

end

def pretty (v : Json) : String := v.prettyAt 0

end ServiceLoom.Json
